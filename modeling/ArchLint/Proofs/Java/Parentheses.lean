import Mathlib.Data.List.Forall2
import ArchLint.Proofs.Java.Chains
import ArchLint.Proofs.Java.Comments

/-!
# Parentheses and lowering

A tree from which some parentheses are taken away is lowered as the tree itself. Most builders of
plans ask questions to which a parenthesis and what it encloses give the same answer, so that only
the nodes left to be lowered differ. The exception is a chain: without its parentheses a left
operand can become one more level of it.
-/

namespace ArchLint.Java

open Syntax (Term Tree)

namespace Cst

def inRole (f : Option Field) : Cst → Cst
  | .node kind _ line text children => .node kind f line text children

/-- The second tree is the first without some of its parentheses: the expression between them
stands in their place and plays their role. It starts on their line. -/
inductive Unwraps : Cst → Cst → Prop where
  | node {kind : Kind} {field : Option Field} {line : Nat} {text : String} {cs cs' : List Cst} :
      List.Forall₂ Unwraps cs cs' →
      Unwraps (.node kind field line text cs) (.node kind field line text cs')
  | parentheses {c d d' : Cst} : c.kind = .parenthesizedExpression →
      (c.named.filter fun e => !e.isComment) = [d] → d.line = c.line → Unwraps d d' →
      Unwraps c (d'.inRole c.field)

/-- The first tree conforms to the grammar, and the second is it without some parentheses. -/
structure Opens (c c' : Cst) : Prop where
  conforms : c.conforms = true
  unwraps : c.Unwraps c'

/-- Parentheses are taken away inside the node, not around it. -/
structure Alike (c c' : Cst) : Prop where
  conforms : c.conforms = true
  kind : c'.kind = c.kind
  field : c'.field = c.field
  line : c'.line = c.line
  text : c'.text = c.text
  children : List.Forall₂ Opens c.children c'.children

variable {c c' d d' : Cst} {f : Field}

@[simp] theorem kind_inRole (f : Option Field) (c : Cst) : (c.inRole f).kind = c.kind := by
  cases c
  rfl

@[simp] theorem line_inRole (f : Option Field) (c : Cst) : (c.inRole f).line = c.line := by
  cases c
  rfl

@[simp] theorem field_inRole (f : Option Field) (c : Cst) : (c.inRole f).field = f := by
  cases c
  rfl

@[simp] theorem get?_inRole (f : Option Field) (c : Cst) : (c.inRole f).get? = c.get? := by
  cases c
  rfl

theorem chain_inRole (f : Option Field) (c : Cst) : Plan.chain (c.inRole f) = Plan.chain c := by
  by_cases hleft : ∃ left, c.get? .left = some left ∧ left.kind = .binaryExpression
  · obtain ⟨left, hget, hbinary⟩ := hleft
    rw [Plan.chain_around hget hbinary,
      Plan.chain_around ((congrFun (get?_inRole f c) _).trans hget) hbinary]
    cases c
    rfl
  · have hsingle : ∀ left, c.get? .left = some left → left.kind ≠ .binaryExpression :=
      fun left hget hbinary => hleft ⟨left, hget, hbinary⟩
    rw [Plan.chain_single hsingle, Plan.chain_single fun left hget =>
      hsingle left ((congrFun (get?_inRole f c) _).symm.trans hget)]
    cases c
    rfl

theorem ofCst_inRole (f : Option Field) (c : Cst) : Plan.ofCst (c.inRole f) = Plan.ofCst c := by
  have hchain := chain_inRole f c
  obtain ⟨kind, field, line, text, children⟩ := c
  cases kind with
  | binaryExpression => exact congrArg (fun p => [p]) hchain
  | _ => rfl

theorem lower_inRole (f : Option Field) (c : Cst) (depth : Nat) :
    (c.inRole f).lower depth = c.lower depth := by
  cases depth with
  | zero => rw [lower, lower, line_inRole]
  | succ depth => rw [lower, lower, ofCst_inRole]

theorem forall₂_of_mem {R S : Cst → Cst → Prop} {cs cs' : List Cst} (h : List.Forall₂ R cs cs')
    (himp : ∀ d ∈ cs, ∀ d', R d d' → S d d') : List.Forall₂ S cs cs' := by
  induction h with
  | nil => exact .nil
  | cons hd _ ih =>
    exact .cons (himp _ List.mem_cons_self _ hd) (ih fun e he => himp e (List.mem_cons_of_mem _ he))

/-- What stands between parentheses, comments apart. -/
theorem Unwraps.inner (hc : c.conforms = true) (hk : c.kind = .parenthesizedExpression)
    (hd : (c.named.filter fun e => !e.isComment) = [d]) :
    d ∈ c.children ∧ d.kind ∈ Grammar.expressions := by
  have hmem : d ∈ c.named.filter fun e => !e.isComment := by
    rw [hd]
    exact List.mem_singleton_self d
  obtain ⟨hnamed, hcomment⟩ := List.mem_filter.mp hmem
  obtain ⟨hchild, hmark⟩ := List.mem_filter.mp hnamed
  refine ⟨hchild, ?_⟩
  have hslots : ((Grammar.content c.kind).slots.all fun s => s.kinds.all fun k =>
      k = .token || Grammar.expressions.contains k) = true := by
    rw [hk]
    decide
  rcases isComment_or_of_slots hc hslots hchild with hout | hcase
  · simp [hout] at hcomment
  · simpa [of_decide_eq_true hmark] using hcase

namespace Opens

theorem field (h : Opens d d') : d'.field = d.field := by
  cases h.unwraps with
  | node _ => rfl
  | parentheses _ _ _ _ => exact field_inRole _ _

/-- Parentheses are taken away inside a node, or it is itself in parentheses that enclose an
expression. -/
theorem cases (h : Opens c c') : Alike c c' ∨ ∃ d d', c.kind = .parenthesizedExpression ∧
    (c.named.filter fun e => !e.isComment) = [d] ∧ d ∈ c.children ∧
    d.kind ∈ Grammar.expressions ∧ d.line = c.line ∧ Opens d d' ∧ c' = d'.inRole c.field := by
  obtain ⟨hc, hunwraps⟩ := h
  cases hunwraps with
  | node hcs =>
    have hchildren := forall₂_of_mem hcs fun d hd d' hdd' => Opens.mk (conforms_child hc hd) hdd'
    exact .inl ⟨hc, rfl, rfl, rfl, rfl, hchildren⟩
  | @parentheses _ d d' hk hd hline hdd' =>
    obtain ⟨hmem, hkind⟩ := Unwraps.inner hc hk hd
    exact .inr ⟨d, d', hk, hd, hmem, hkind, hline, ⟨conforms_child hc hmem, hdd'⟩, rfl⟩

theorem alike (h : Opens c c') (hk : c.kind ≠ .parenthesizedExpression) : Alike c c' := by
  rcases h.cases with halike | ⟨_, _, hparens, -⟩
  · exact halike
  · exact absurd hparens hk

theorem line {c c' : Cst} (h : Opens c c') : c'.line = c.line := by
  rcases h.cases with halike | ⟨d, d', -, -, hmem, -, hline, hd, rfl⟩
  · exact halike.line
  · rw [line_inRole, hd.line, hline]
termination_by c.weight
decreasing_by exact weight_lt_of_mem_children hmem

theorem kind {c c' : Cst} (h : Opens c c') : c'.kind = c.kind ∨
    c.kind = .parenthesizedExpression ∧ c'.kind ∈ Grammar.expressions := by
  rcases h.cases with halike | ⟨d, d', hk, -, hmem, hkind, -, hd, rfl⟩
  · exact .inl halike.kind
  · refine .inr ⟨hk, ?_⟩
    rw [kind_inRole]
    rcases hd.kind with hsame | ⟨-, hexpression⟩
    · rwa [hsame]
    · exact hexpression
termination_by c.weight
decreasing_by exact weight_lt_of_mem_children hmem

/-- A question about kinds that does not tell expressions apart has the same answer. -/
theorem test {q : Kind → Bool} (hq : ∀ k ∈ Grammar.expressions, q k = q .parenthesizedExpression)
    (h : Opens d d') : q d'.kind = q d.kind := by
  rcases h.kind with hsame | ⟨hparens, hexpression⟩
  · rw [hsame]
  · rw [hparens, hq _ hexpression]

theorem isNamed (h : Opens d d') : d'.isNamed = d.isNamed :=
  h.test (q := fun k => k ≠ .token) (by decide)

theorem isComment (h : Opens d d') : d'.isComment = d.isComment :=
  h.test (q := Kind.isComment) (by decide)

theorem isAnnotating (h : Opens d d') : d'.isAnnotating = d.isAnnotating :=
  h.test (q := Kind.isAnnotating) (by decide)

theorem isMark (h : Opens d d') (mark : String) :
    (decide (d'.kind = .token) && d'.text == mark) =
      (decide (d.kind = .token) && d.text == mark) := by
  rcases h.cases with halike | ⟨_, _, hk, -⟩
  · rw [halike.kind, halike.text]
  · have hnamed := h.isNamed
    simp only [Cst.isNamed, hk] at hnamed
    simp [hk] at hnamed ⊢
    simp [hnamed]

end Opens

theorem forall₂_filter {R : Cst → Cst → Prop} {cs cs' : List Cst} {p : Cst → Bool}
    (h : List.Forall₂ R cs cs') (hp : ∀ d d', R d d' → p d' = p d) :
    List.Forall₂ R (cs.filter p) (cs'.filter p) := by
  refine List.rel_filter (fun d d' hd => ?_) h
  exact Bool.eq_iff_iff.mp (hp d d' hd).symm

theorem rel_head? {R : Cst → Cst → Prop} {cs cs' : List Cst} (h : List.Forall₂ R cs cs') :
    Option.Rel R cs.head? cs'.head? := by
  cases h with
  | nil => exact .none
  | cons hd _ => exact .some hd

theorem rel_getLast? {R : Cst → Cst → Prop} {cs cs' : List Cst} (h : List.Forall₂ R cs cs') :
    Option.Rel R cs.getLast? cs'.getLast? := by
  rw [← List.head?_reverse, ← List.head?_reverse]
  exact rel_head? (List.rel_reverse h)

theorem any_eq_of_forall₂ {R : Cst → Cst → Prop} {cs cs' : List Cst} {p : Cst → Bool}
    (h : List.Forall₂ R cs cs') (hp : ∀ d d', R d d' → p d' = p d) : cs'.any p = cs.any p := by
  induction h with
  | nil => rfl
  | cons hd _ ih => rw [List.any_cons, List.any_cons, hp _ _ hd, ih]

theorem rel_find? {R : Cst → Cst → Prop} {cs cs' : List Cst} {p : Cst → Bool}
    (h : List.Forall₂ R cs cs') (hp : ∀ d d', R d d' → p d' = p d) :
    Option.Rel R (cs.find? p) (cs'.find? p) := by
  rw [← List.head?_filter, ← List.head?_filter]
  exact rel_head? (forall₂_filter h hp)

theorem map_eq_of_forall₂ {β : Type} {R : Cst → Cst → Prop} {cs cs' : List Cst} {g : Cst → β}
    (h : List.Forall₂ R cs cs') (hg : ∀ d d', R d d' → g d' = g d) : cs'.map g = cs.map g := by
  induction h with
  | nil => rfl
  | cons hd _ ih => rw [List.map_cons, List.map_cons, hg _ _ hd, ih]

theorem map_eq_of_rel {β : Type} {R : Cst → Cst → Prop} {o o' : Option Cst} {g : Cst → β}
    (h : Option.Rel R o o') (hg : ∀ d d', R d d' → g d' = g d) : o'.map g = o.map g := by
  cases h with
  | none => rfl
  | some hd => rw [Option.map_some, Option.map_some, hg _ _ hd]

theorem rel_bind {R S : Cst → Cst → Prop} {o o' : Option Cst} {g : Cst → Option Cst}
    (h : Option.Rel R o o') (hg : ∀ d d', R d d' → Option.Rel S (g d) (g d')) :
    Option.Rel S (o.bind g) (o'.bind g) := by
  cases h with
  | none => exact .none
  | some hd => exact hg _ _ hd

theorem rel_cases {R : Cst → Cst → Prop} {o o' : Option Cst} (h : Option.Rel R o o') :
    (o = none ∧ o' = none) ∨ ∃ d d', o = some d ∧ o' = some d' ∧ R d d' := by
  cases h with
  | none => exact .inl ⟨rfl, rfl⟩
  | some hd => exact .inr ⟨_, _, rfl, rfl, hd⟩

/-- The answers to a search that finds no parentheses. -/
theorem rel_alike {o o' : Option Cst} (h : Option.Rel Opens o o')
    (hk : ∀ d, o = some d → d.kind ≠ .parenthesizedExpression) : Option.Rel Alike o o' := by
  cases h with
  | none => exact .none
  | some hd => exact .some (hd.alike (hk _ rfl))

namespace Alike

theorem named (h : Alike c c') : List.Forall₂ Opens c.named c'.named :=
  forall₂_filter h.children fun _ _ hd => hd.isNamed

theorem get? (h : Alike c c') (f : Field) : Option.Rel Opens (c.get? f) (c'.get? f) :=
  rel_find? h.children fun _ _ hd => by rw [hd.field]

theorem isSome_get? (h : Alike c c') (f : Field) : (c'.get? f).isSome = (c.get? f).isSome := by
  rcases rel_cases (h.get? f) with ⟨hd, hd'⟩ | ⟨d, d', hd, hd', -⟩
  · rw [hd, hd']
  · rw [hd, hd']
    rfl

theorem getAll (h : Alike c c') (f : Field) : List.Forall₂ Opens (c.getAll f) (c'.getAll f) :=
  forall₂_filter h.children fun _ _ hd => by rw [hd.field]

theorem find?_named (h : Alike c c') {q : Kind → Bool}
    (hq : ∀ k ∈ Grammar.expressions, q k = q .parenthesizedExpression) :
    Option.Rel Opens (c.named.find? fun d => q d.kind) (c'.named.find? fun d => q d.kind) :=
  rel_find? h.named fun _ _ hd => hd.test hq

theorem filter_named (h : Alike c c') {q : Kind → Bool}
    (hq : ∀ k ∈ Grammar.expressions, q k = q .parenthesizedExpression) :
    List.Forall₂ Opens (c.named.filter fun d => q d.kind) (c'.named.filter fun d => q d.kind) :=
  forall₂_filter h.named fun _ _ hd => hd.test hq

def plainRoles : List Field :=
  [.name, .type, .parameters, .declarator, .operator, .key, .arguments]

theorem role (h : Alike c c') (f : Field) (hf : f ∈ plainRoles) :
    Option.Rel Alike (c.get? f) (c'.get? f) := by
  have htable : ∀ k : Kind, ∀ f ∈ plainRoles,
      Kind.parenthesizedExpression ∉ Grammar.kindsIn k (some f) := by
    intro k
    cases k <;> decide
  refine rel_alike (h.get? f) fun d hd hk => ?_
  have hmem := kind_of_get? h.conforms hd
  rw [hk] at hmem
  exact htable c.kind f hf hmem

def plainKinds : List Kind :=
  [ .genericType, .scopedTypeIdentifier, .scopedIdentifier, .arrayType, .annotatedType, .catchType,
    .packageDeclaration, .importDeclaration, .inferredParameters, .modifiers, .superclass,
    .extendsInterfaces, .superInterfaces, .typeList, .formalParameters, .spreadParameter,
    .catchFormalParameter ]

/-- Where no parentheses stand, none are taken away. -/
theorem children_alike (h : Alike c c') (hk : c.kind ∈ plainKinds) :
    List.Forall₂ Alike c.children c'.children := by
  have hslots : ∀ k ∈ plainKinds, ((Grammar.content k).slots.all fun s => s.kinds.all fun k =>
      k ≠ .parenthesizedExpression) = true := by decide
  have hkinds : ∀ d ∈ c.children, d.kind ≠ .parenthesizedExpression := by
    intro d hd hparens
    rcases isComment_or_of_slots h.conforms (hslots c.kind hk) hd with hcomment | hkind
    · rw [Cst.isComment, hparens] at hcomment
      cases hcomment
    · exact of_decide_eq_true hkind hparens
  exact forall₂_of_mem h.children fun d hd d' hdd' => hdd'.alike (hkinds d hd)

theorem named_alike (h : Alike c c') (hk : c.kind ∈ plainKinds) :
    List.Forall₂ Alike c.named c'.named :=
  forall₂_filter (h.children_alike hk) fun d d' hd => by
    rw [Cst.isNamed, hd.kind]
    rfl

theorem typeName {c c' : Cst} (h : Alike c c') : c'.typeName = c.typeName := by
  have hnames (hk : c.kind ∈ plainKinds) : List.Forall₂
      (fun d d' => Alike d d' ∧ d'.typeName = d.typeName) c.children c'.children :=
    forall₂_of_mem (h.children_alike hk) fun d hd d' hdd' => ⟨hdd', hdd'.typeName⟩
  rw [typeName_eq, typeName_eq, h.kind]
  cases hkind : c.kind with
  | genericType =>
    have hfound := rel_find? (p := fun d => d.isNamed && d.kind ≠ .typeArguments)
      (hnames (by simp [hkind, plainKinds])) fun d d' hd => by rw [Cst.isNamed, hd.1.kind]; rfl
    simp only [firstTypeName_eq, map_eq_of_rel hfound fun d d' hd => hd.2]
  | scopedTypeIdentifier | scopedIdentifier =>
    have hsegments := forall₂_filter (p := fun d => isSegment d.kind)
      (hnames (by simp [hkind, plainKinds])) fun d d' hd => by rw [hd.1.kind]
    simp only [segmentNames_eq]
    exact congrArg _ (map_eq_of_forall₂ hsegments fun d d' hd => hd.2)
  | arrayType =>
    have hfound := rel_find? (p := fun d => d.field = some .element)
      (hnames (by simp [hkind, plainKinds])) fun d d' hd => by rw [hd.1.field]
    simp only [elementTypeName_eq, map_eq_of_rel hfound fun d d' hd => hd.2]
  | annotatedType | catchType =>
    have hsegments := forall₂_filter (p := fun d => isSegment d.kind)
      (hnames (by simp [hkind, plainKinds])) fun d d' hd => by rw [hd.1.kind]
    have hlast := congrArg List.getLast? (map_eq_of_forall₂ hsegments fun d d' hd => hd.2)
    simp only [List.getLast?_map] at hlast
    simp only [lastTypeName_eq, hlast]
  | _ => exact h.text
termination_by c.weight
decreasing_by exact weight_lt_of_mem_children hd

theorem parameterType (h : Alike c c')
    (hk : c.kind ∈ [.formalParameter, .spreadParameter, .catchFormalParameter]) :
    Option.Rel Alike (Plan.parameterType c) (Plan.parameterType c') := by
  rw [Plan.parameterType, Plan.parameterType, h.kind]
  cases hkind : c.kind with
  | formalParameter => exact h.role .type (by decide)
  | catchFormalParameter =>
    refine rel_alike (h.find?_named (q := fun k => k = .catchType) (by decide)) ?_
    intro d hd hparens
    have hcatch := List.find?_some hd
    simp [hparens] at hcatch
  | spreadParameter =>
    exact rel_find? (h.named_alike (by simp [hkind, plainKinds])) fun d d' hd => by rw [hd.kind]
  | _ =>
    rw [hkind] at hk
    exact absurd hk (by decide)

theorem parameterName (h : Alike c c') :
    Option.Rel Alike (Plan.parameterName c) (Plan.parameterName c') := by
  rw [Plan.parameterName, Plan.parameterName, h.kind]
  split
  · have hfound : Option.Rel Alike (c.named.find? fun d => d.kind = .variableDeclarator)
        (c'.named.find? fun d => d.kind = .variableDeclarator) := by
      refine rel_alike (h.find?_named (q := fun k => k = .variableDeclarator) (by decide)) ?_
      intro d hd hparens
      have hdeclarator := List.find?_some hd
      simp [hparens] at hdeclarator
    exact rel_bind hfound fun d d' hd => hd.role .name (by decide)
  · exact h.role .name (by decide)

end Alike

end Cst

namespace Plan

open Cst (Opens Alike)

variable {c c' d d' : Cst} {lower : Cst → Except TooDeep (List Term)} {p p' : Plan}
  {ps ps' qs qs' : List Plan}

/-- Wherever the first plans can be filled, the second are filled with the same terms. -/
def Keeps (lower : Cst → Except TooDeep (List Term)) (ps ps' : List Plan) : Prop :=
  ∀ ts, fillAll lower ps = .ok ts → fillAll lower ps' = .ok ts

theorem fillAll_cons_ok {ts : List Term} : fillAll lower (p :: ps) = .ok ts ↔
    ∃ us vs, fill lower p = .ok us ∧ fillAll lower ps = .ok vs ∧ ts = us ++ vs := by
  rw [fillAll]
  cases fill lower p with
  | error e => simp
  | ok us =>
    cases fillAll lower ps with
    | error e => simp
    | ok vs => simp [eq_comm]

theorem fillAll_append_ok {ts : List Term} : fillAll lower (ps ++ qs) = .ok ts ↔
    ∃ us vs, fillAll lower ps = .ok us ∧ fillAll lower qs = .ok vs ∧ ts = us ++ vs := by
  constructor
  · intro h
    induction ps generalizing ts with
    | nil => exact ⟨[], ts, rfl, h, rfl⟩
    | cons p ps ih =>
      obtain ⟨us, rest, hus, hrest, rfl⟩ := fillAll_cons_ok.mp h
      obtain ⟨us', vs, hus', hvs, rfl⟩ := ih hrest
      exact ⟨us ++ us', vs, fillAll_cons_ok.mpr ⟨us, us', hus, hus', rfl⟩, hvs,
        (List.append_assoc _ _ _).symm⟩
  · rintro ⟨us, vs, hps, hqs, rfl⟩
    exact fillAll_append hps hqs

namespace Keeps

theorem refl (ps : List Plan) : Keeps lower ps ps :=
  fun _ h => h

theorem trans (h : Keeps lower ps qs) (h' : Keeps lower qs qs') : Keeps lower ps qs' :=
  fun ts hts => h' ts (h ts hts)

theorem append (hps : Keeps lower ps ps') (hqs : Keeps lower qs qs') :
    Keeps lower (ps ++ qs) (ps' ++ qs') := by
  intro ts h
  obtain ⟨us, vs, hus, hvs, rfl⟩ := fillAll_append_ok.mp h
  exact fillAll_append (hps us hus) (hqs vs hvs)

theorem cons (hp : Keeps lower [p] [p']) (hps : Keeps lower ps ps') :
    Keeps lower (p :: ps) (p' :: ps') :=
  hp.append hps

theorem node (kind : Syntax.Kind) (text : Option String) (line : Nat) (h : Keeps lower ps ps') :
    Keeps lower [.node kind text line ps] [.node kind text line ps'] := by
  intro ts hts
  rw [fillAll_singleton, fill] at hts ⊢
  cases hparts : fillAll lower ps with
  | error e => simp [hparts] at hts
  | ok us =>
    rw [hparts] at hts
    rw [h us hparts]
    exact hts

theorem flatMap {R : Cst → Cst → Prop} {cs cs' : List Cst} {g g' : Cst → List Plan}
    (h : List.Forall₂ R cs cs') (hg : ∀ d d', R d d' → Keeps lower (g d) (g' d')) :
    Keeps lower (cs.flatMap g) (cs'.flatMap g') := by
  induction h with
  | nil => exact refl _
  | cons hd _ ih =>
    rw [List.flatMap_cons, List.flatMap_cons]
    exact (hg _ _ hd).append ih

theorem map {R : Cst → Cst → Prop} {cs cs' : List Cst} {g g' : Cst → Plan}
    (h : List.Forall₂ R cs cs') (hg : ∀ d d', R d d' → Keeps lower [g d] [g' d']) :
    Keeps lower (cs.map g) (cs'.map g') := by
  rw [List.map_eq_flatMap, List.map_eq_flatMap]
  exact flatMap h hg

theorem filterMap {R : Cst → Cst → Prop} {cs cs' : List Cst} {g g' : Cst → Option Plan}
    (h : List.Forall₂ R cs cs') (hg : ∀ d d', R d d' → Keeps lower (g d).toList (g' d').toList) :
    Keeps lower (cs.filterMap g) (cs'.filterMap g') := by
  rw [List.filterMap_eq_flatMap_toList, List.filterMap_eq_flatMap_toList]
  exact flatMap h hg

theorem optional {R : Cst → Cst → Prop} {o o' : Option Cst} {g g' : Cst → Plan}
    (h : Option.Rel R o o') (hg : ∀ d d', R d d' → Keeps lower [g d] [g' d']) :
    Keeps lower (o.map g).toList (o'.map g').toList := by
  cases h with
  | none => exact refl _
  | some hd => exact hg _ _ hd

end Keeps

theorem nameOf_alike {o o' : Option Cst} (h : Option.Rel Alike o o') (line : Nat) :
    nameOf o' line = nameOf o line := by
  cases h with
  | none => rfl
  | some hd => rw [nameOf, nameOf, hd.text, hd.line]

theorem typeRef_alike {o o' : Option Cst} (h : Option.Rel Alike o o') (line : Nat) :
    typeRef o' line = typeRef o line := by
  cases h with
  | none => rfl
  | some hd => rw [typeRef, typeRef, hd.typeName, hd.line, hd.kind]

theorem name_alike (h : Alike c c') (line : Nat) :
    nameOf (c'.get? .name) line = nameOf (c.get? .name) line :=
  nameOf_alike (h.role .name (by decide)) line

theorem type_alike (h : Alike c c') (line : Nat) :
    typeRef (c'.get? .type) line = typeRef (c.get? .type) line :=
  typeRef_alike (h.role .type (by decide)) line

theorem nil_of_comments {ds : List Cst} {ts : List Term}
    (hcomment : ∀ d ts, d.isComment = true → lower d = .ok ts → ts = [])
    (hds : ∀ d ∈ ds, d.isComment = true) (h : fillAll lower (holes ds) = .ok ts) : ts = [] := by
  induction ds generalizing ts with
  | nil => exact (Except.ok.inj h).symm
  | cons d ds ih =>
    obtain ⟨us, vs, hus, hvs, rfl⟩ := fillAll_cons_ok.mp h
    rw [hcomment d us (hds d List.mem_cons_self) hus,
      ih (fun e he => hds e (List.mem_cons_of_mem _ he)) hvs]
    rfl

/-- Comments in front of a left operand do not matter. -/
theorem operator_enclose {l : Cst} (hc : c.conforms = true) (hk : c.kind = .binaryExpression)
    (hl : c.get? .left = some l)
    (hcomment : ∀ d ts, d.isComment = true → lower d = .ok ts → ts = []) :
    Keeps lower [operator c] [enclose (.hole l) c] := by
  obtain ⟨before, left, after, hchildren, hget, hleft, hcomments, hothers⟩ := Cst.exists_left hc hk
  cases hget.symm.trans hl
  have hnamed : c.named = before.filter Cst.isNamed ++ l :: after.filter Cst.isNamed := by
    rw [Cst.named, hchildren, List.filter_append, List.filter_cons_of_pos hleft]
  have hrest : (c.named.filter fun d => d.field ≠ some .left) =
      before.filter Cst.isNamed ++ after.filter Cst.isNamed := by
    rw [hnamed, List.filter_append, List.filter_cons_of_neg (by simp [(Cst.mem_of_get? hl).2]),
      ← List.filter_append, List.filter_eq_self, ← List.filter_append]
    intro d hd
    simpa using hothers d (List.mem_filter.mp hd).1
  refine .node _ _ _ fun ts hts => ?_
  rw [hnamed, holes, List.map_append, List.map_cons] at hts
  obtain ⟨us, vs, hus, hvs, rfl⟩ := fillAll_append_ok.mp hts
  obtain ⟨ws, xs, hws, hxs, rfl⟩ := fillAll_cons_ok.mp hvs
  have hnil : us = [] :=
    nil_of_comments hcomment (fun d hd => hcomments d (List.mem_filter.mp hd).1) hus
  subst hnil
  rw [hrest, holes, List.map_append]
  exact fillAll_cons_ok.mpr ⟨ws, xs, hws, fillAll_append hus hxs, rfl⟩

theorem package_alike (h : Alike c c') (hk : c.kind = .packageDeclaration) :
    package c' = package c := by
  have hfound := Cst.rel_find? (p := isName) (h.named_alike (by rw [hk]; decide)) fun d d' hd => by
    rw [isName, hd.kind]
    rfl
  rw [package, package, h.line]
  rcases Cst.rel_cases hfound with ⟨hn, hn'⟩ | ⟨n, n', hn, hn', hnn'⟩
  · rw [hn, hn']
  · rw [hn, hn']
    simp only [hnn'.typeName]

theorem import_alike (h : Alike c c') (hk : c.kind = .importDeclaration) :
    import_ c' = import_ c := by
  have hchildren := h.children_alike (by rw [hk]; decide)
  have hname := Cst.rel_getLast? (Cst.forall₂_filter (p := isName) hchildren fun d d' hd => by
    rw [isName, hd.kind]
    rfl)
  have hstatic := Cst.any_eq_of_forall₂ (p := fun d => d.kind = .token && d.text == "static")
    hchildren fun d d' hd => by rw [hd.kind, hd.text]
  have hstar := Cst.any_eq_of_forall₂ (p := fun d => d.kind = .asterisk) hchildren
    fun d d' hd => by rw [hd.kind]
  rw [import_, import_, h.line, hstatic, hstar]
  rcases Cst.rel_cases hname with ⟨hn, hn'⟩ | ⟨n, n', hn, hn', hnn'⟩
  · rw [hn, hn']
  · rw [hn, hn']
    simp only [hnn'.typeName]

theorem clause_alike (kind : Syntax.Kind) (h : Alike c c')
    (hk : c.kind ∈ [.superclass, .extendsInterfaces, .superInterfaces]) :
    clause kind c' = clause kind c := by
  have hplain : ∀ k ∈ [Kind.superclass, .extendsInterfaces, .superInterfaces],
      k ∈ Alike.plainKinds := by decide
  have htypes : List.Forall₂ Alike
      (c.named.flatMap fun d => if d.kind = .typeList then d.named else [d])
      (c'.named.flatMap fun d => if d.kind = .typeList then d.named else [d]) := by
    refine List.rel_flatMap (h.named_alike (hplain c.kind hk)) fun d d' hd => ?_
    rw [hd.kind]
    split
    · next hlist => exact hd.named_alike (by rw [hlist]; decide)
    · exact .cons hd .nil
  have hnames := Cst.map_eq_of_forall₂
    (g := fun type => Plan.qualified type.typeName type.line)
    (Cst.forall₂_filter (p := fun d => !d.isComment) htypes fun d d' hd => by
      rw [Cst.isComment, hd.kind]
      rfl)
    fun d d' hd => by rw [hd.typeName, hd.line]
  rw [clause, clause, h.line]
  exact congrArg _ hnames

theorem clause?_opens (h : d.Opens d') : clause? d' = clause? d := by
  rcases h.cases with halike | ⟨_, _, hk, -⟩
  · rw [clause?, clause?, halike.kind]
    split
    · next hk => rw [clause_alike _ halike (by simp [hk])]
    · next hk => rw [clause_alike _ halike (by simp [hk])]
    · next hk => rw [clause_alike _ halike (by simp [hk])]
    · rfl
  · have hnone : ∀ k ∈ Grammar.expressions, k ∉ [Kind.superclass, .extendsInterfaces,
        .superInterfaces] := by decide
    have hexpression : d'.kind ∈ Grammar.expressions := by
      rcases h.kind with hsame | ⟨-, hexpression⟩
      · rw [hsame, hk]
        decide
      · exact hexpression
    have hother := hnone _ hexpression
    rw [clause?, clause?, hk]
    split <;> simp_all

/-- Whatever is lowered is lowered to the same terms without its parentheses. -/
def KeepsOpened (lower : Cst → Except TooDeep (List Term)) : Prop :=
  ∀ d d' : Cst, d.Opens d' → Keeps lower [.hole d] [.hole d']

namespace KeepsOpened

variable (hlower : KeepsOpened lower)
include hlower

theorem holes {ds ds' : List Cst} (h : List.Forall₂ Opens ds ds') :
    Keeps lower (holes ds) (holes ds') :=
  .map h hlower

theorem nest (kind : Syntax.Kind) (h : Alike c c') :
    Keeps lower [nest kind c] [nest kind c'] := by
  rw [Plan.nest, Plan.nest, h.line]
  exact .node _ _ _ (hlower.holes h.named)

theorem expr (h : d.Opens d') : Keeps lower [expr d] [expr d'] := by
  rw [Plan.expr, Plan.expr, h.line]
  exact .node _ _ _ (hlower d d' h)

theorem role (h : Alike c c') (f : Field) :
    Keeps lower (Plan.holes (c.get? f).toList) (Plan.holes (c'.get? f).toList) := by
  have htoList (o : Option Cst) : Plan.holes o.toList = (o.map Plan.hole).toList := by
    cases o <;> rfl
  rw [htoList, htoList]
  exact .optional (h.get? f) hlower

theorem annotationArgument (h : d.Opens d') :
    Keeps lower [annotationArgument d] [annotationArgument d'] := by
  have htest := h.test (q := fun k => k = .elementValuePair) (by decide)
  rw [Plan.annotationArgument, Plan.annotationArgument]
  by_cases hk : d.kind = .elementValuePair
  · have halike := h.alike (by rw [hk]; decide)
    rw [if_pos hk, if_pos (halike.kind.trans hk), halike.line,
      nameOf_alike (halike.role .key (by decide))]
    refine .node _ _ _ ((Keeps.refl _).append ?_)
    exact .optional (halike.get? .value) fun _ _ => hlower.expr
  · have hk' : d'.kind ≠ .elementValuePair := by simpa [hk] using htest
    rw [if_neg hk, if_neg hk']
    exact hlower.expr h

theorem annotated (h : Alike c c') : Keeps lower [annotated c] [annotated c'] := by
  rw [Plan.annotated, Plan.annotated, h.line]
  refine .node _ _ _ (.append ?_ ?_)
  · refine .optional (h.role .name (by decide)) fun d d' hd => ?_
    rw [hd.typeName]
    exact .refl _
  · rcases Cst.rel_cases (h.role .arguments (by decide)) with
      ⟨hnone, hnone'⟩ | ⟨l, l', hl, hl', hll'⟩
    · rw [hnone, hnone']
      exact .refl _
    · rw [hl, hl']
      refine .map (Cst.forall₂_filter hll'.named fun d d' hd => ?_) fun _ _ =>
        hlower.annotationArgument
      rw [hd.isComment]

theorem modifierList (h : Alike c c') : Keeps lower [modifierList c] [modifierList c'] := by
  rw [Plan.modifierList, Plan.modifierList, h.line]
  refine .node _ _ _ (.filterMap h.children fun d d' hd => ?_)
  rw [modifier, modifier, hd.isAnnotating, hd.isNamed]
  split
  · next hannotating =>
    refine hlower.annotated (hd.alike fun hparens => ?_)
    rw [Cst.isAnnotating, hparens] at hannotating
    cases hannotating
  · split
    · exact .refl _
    · next hmark =>
      have halike : d.Alike d' := hd.alike fun hparens => hmark (by rw [Cst.isNamed, hparens]; rfl)
      rw [halike.text, halike.line]
      exact .refl _

theorem modifiers (h : Alike c c') : Keeps lower [modifiers c] [modifiers c'] := by
  rw [Plan.modifiers, Plan.modifiers, h.line]
  rcases Cst.rel_cases (h.find?_named (q := fun k => k = .modifiers) (by decide)) with
    ⟨hnone, hnone'⟩ | ⟨l, l', hl, hl', hll'⟩
  · rw [hnone, hnone']
    exact .refl _
  · rw [hl, hl']
    refine hlower.modifierList (hll'.alike fun hparens => ?_)
    have hfound := List.find?_some hl
    simp [hparens] at hfound

theorem definition (h : Alike c c') (kind : Syntax.Kind) (line : Nat) (hps : Keeps lower ps ps') :
    Keeps lower [.node kind none line (Plan.modifiers c :: ps)]
      [.node kind none line (Plan.modifiers c' :: ps')] :=
  .node _ _ _ (.cons (hlower.modifiers h) hps)

theorem initializer (h : Alike c c') (hd : d.Opens d') :
    Keeps lower [initializer c d] [initializer c' d'] := by
  have hsign := Cst.rel_find? (p := fun e => e.kind = .token && e.text == "=") h.children
    fun e e' he => he.isMark "="
  have hline := Cst.map_eq_of_rel (g := Cst.line) hsign fun e e' he => he.line
  have htest := hd.test (q := fun k => k = .arrayInitializer) (by decide)
  rw [Plan.initializer, Plan.initializer, hline, hd.line]
  refine .node _ _ _ ?_
  by_cases hk : d.kind = .arrayInitializer
  · have hk' : d'.kind = .arrayInitializer := by simpa [hk] using htest
    rw [if_pos hk, if_pos hk']
    exact hlower d d' hd
  · have hk' : d'.kind ≠ .arrayInitializer := by simpa [hk] using htest
    rw [if_neg hk, if_neg hk']
    exact hlower.expr hd

omit hlower in
theorem arrayMark (h : Alike c c') (line : Nat) : arrayMark c' line = arrayMark c line := by
  rw [Plan.arrayMark, Plan.arrayMark, h.isSome_get?]

theorem variable_ (h : Alike c c') (hd : d.Alike d') :
    Keeps lower [variable_ c d] [variable_ c' d'] := by
  rw [Plan.variable_, Plan.variable_, hd.line, type_alike h, name_alike hd, arrayMark hd]
  refine hlower.definition h _ _ (.append (.refl _) ?_)
  exact .optional (hd.get? .value) fun _ _ => hlower.initializer hd

theorem variableDefs (h : Alike c c')
    (hk : c.kind ∈ [.fieldDeclaration, .constantDeclaration, .localVariableDeclaration]) :
    Keeps lower (variableDefs c) (variableDefs c') := by
  have htable : ∀ k ∈ [Kind.fieldDeclaration, .constantDeclaration, .localVariableDeclaration],
      ∀ k' ∈ Grammar.kindsIn k (some .declarator), k' ≠ .parenthesizedExpression := by decide
  have hpairs : List.Forall₂ Alike (c.getAll .declarator) (c'.getAll .declarator) := by
    refine Cst.forall₂_of_mem (h.getAll .declarator) fun d hd d' hdd' => hdd'.alike ?_
    obtain ⟨hmem, hfield⟩ := List.mem_filter.mp hd
    exact htable c.kind hk d.kind (Cst.kind_of_field h.conforms hmem (of_decide_eq_true hfield))
  exact .map hpairs fun _ _ => hlower.variable_ h

theorem component (h : Alike c c') : Keeps lower [component c] [component c'] := by
  rw [Plan.component, Plan.component, h.line, type_alike h, name_alike h, arrayMark h]
  exact hlower.definition h _ _ (.refl _)

theorem parameter (h : Alike c c')
    (hk : c.kind ∈ [.formalParameter, .spreadParameter, .catchFormalParameter]) :
    Keeps lower [parameter c] [parameter c'] := by
  rw [Plan.parameter, Plan.parameter, h.line, typeRef_alike (h.parameterType hk),
    nameOf_alike h.parameterName]
  exact hlower.definition h _ _ (.refl _)

theorem parameters {o o' : Option Cst} (h : Option.Rel Alike o o') (line : Nat) :
    Keeps lower [parameters o line] [parameters o' line] := by
  rcases Cst.rel_cases h with ⟨rfl, rfl⟩ | ⟨l, l', rfl, rfl, hl⟩
  · exact .refl _
  · rw [Plan.parameters, Plan.parameters, hl.line]
    have hpairs := Cst.forall₂_filter (p := isParameter) hl.named fun d d' hd =>
      hd.test (q := isListed) (by decide)
    have halike : List.Forall₂ (fun d d' => Alike d d' ∧ isParameter d = true)
        (l.named.filter isParameter) (l'.named.filter isParameter) := by
      refine Cst.forall₂_of_mem hpairs fun d hd d' hdd' => ?_
      have hparameter := (List.mem_filter.mp hd).2
      refine ⟨hdd'.alike fun hparens => ?_, hparameter⟩
      rw [isParameter, hparens] at hparameter
      cases hparameter
    refine .node _ _ _ (.map halike fun d d' hd => hlower.parameter hd.1 ?_)
    have hk := hd.2
    revert hk
    unfold isParameter
    cases d.kind <;> decide

omit hlower in
theorem inferredParameter (h : d.Alike d') : inferredParameter d' = inferredParameter d := by
  rw [Plan.inferredParameter, Plan.inferredParameter, h.line, nameOf_alike (.some h)]

theorem resource (h : Alike c c') : Keeps lower [resource c] [resource c'] := by
  rw [Plan.resource, Plan.resource]
  rcases Cst.rel_cases (h.role .name (by decide)) with ⟨hn, hn'⟩ | ⟨n, n', hn, hn', hnn'⟩
  · rw [hn, hn']
    exact hlower.nest _ h
  · rw [hn, hn']
    simp only
    rw [h.line, type_alike h, nameOf_alike (.some hnn')]
    refine hlower.definition h _ _ (.append (.refl _) ?_)
    exact .optional (h.get? .value) fun _ _ => hlower.initializer h

theorem member (h : d.Opens d') : Keeps lower (member d) (member d') := by
  have htest := h.test (q := fun k => k = .enumBodyDeclarations) (by decide)
  rw [Plan.member, Plan.member]
  by_cases hk : d.kind = .enumBodyDeclarations
  · have halike := h.alike (by rw [hk]; decide)
    rw [if_pos hk, if_pos (halike.kind.trans hk)]
    exact hlower.holes halike.named
  · have hk' : d'.kind ≠ .enumBodyDeclarations := by simpa [hk] using htest
    rw [if_neg hk, if_neg hk']
    exact hlower d d' h

theorem body (h : Alike c c') {o o' : Option Cst} (ho : Option.Rel Alike o o') :
    Keeps lower [body c o] [body c' o'] := by
  unfold Plan.body
  rw [h.line]
  refine .node _ _ _ (.append ?_ (.flatMap h.named fun _ _ => hlower.member))
  rcases Cst.rel_cases ho with ⟨rfl, rfl⟩ | ⟨l, l', rfl, rfl, hl⟩
  · exact .refl _
  · have hpairs := hl.filter_named (q := fun k => k = .formalParameter) (by decide)
    refine .map (Cst.forall₂_of_mem hpairs fun d hd d' hdd' => hdd'.alike fun hparens => ?_)
      fun _ _ => hlower.component
    have hfound := (List.mem_filter.mp hd).2
    simp [hparens] at hfound

theorem typeDeclaration (h : Alike c c') (kind : Syntax.Kind)
    (hk : c.kind ∈ [.classDeclaration, .recordDeclaration, .interfaceDeclaration,
      .annotationTypeDeclaration, .enumDeclaration]) :
    Keeps lower [typeDeclaration kind c] [typeDeclaration kind c'] := by
  rw [Plan.typeDeclaration, Plan.typeDeclaration, h.kind, h.line, name_alike h]
  refine .node _ _ _ (.append (.append (.cons (hlower.modifiers h) (.refl _)) ?_) ?_)
  · exact .filterMap h.named fun d d' hd => by
      rw [clause?_opens hd]
      exact .refl _
  · rcases Cst.rel_cases (h.get? .body) with ⟨hb, hb'⟩ | ⟨b, b', hb, hb', hbb'⟩
    · rw [hb, hb']
      exact .refl _
    · rw [hb, hb']
      have htable : ∀ k ∈ [Kind.classDeclaration, .recordDeclaration, .interfaceDeclaration,
          .annotationTypeDeclaration, .enumDeclaration], ∀ k' ∈ Grammar.kindsIn k (some .body),
          k' ≠ .parenthesizedExpression := by decide
      have halike : b.Alike b' :=
        hbb'.alike (htable c.kind hk b.kind (Cst.kind_of_get? h.conforms hb))
      simp only
      split
      · exact hlower.body halike (h.role .parameters (by decide))
      · exact hlower.body halike .none

theorem method (h : Alike c c') : Keeps lower [method c] [method c'] := by
  rw [Plan.method, Plan.method, h.line, type_alike h, name_alike h]
  refine hlower.definition h _ _
    (.cons (.refl _) (.cons (.refl _) (.cons ?_ (hlower.role h .body))))
  exact hlower.parameters (h.role .parameters (by decide)) _

theorem constructor_ (h : Alike c c') : Keeps lower [constructor_ c] [constructor_ c'] := by
  rw [Plan.constructor_, Plan.constructor_, h.line, name_alike h]
  refine hlower.definition h _ _ (.cons (.refl _) (.cons ?_ (hlower.role h .body)))
  exact hlower.parameters (h.role .parameters (by decide)) _

theorem forEach (h : Alike c c') : Keeps lower [forEach c] [forEach c'] := by
  rw [Plan.forEach, Plan.forEach, h.line, type_alike h, name_alike h]
  refine .node _ _ _
    (.append (.append (hlower.definition h _ _ (.refl _)) ?_) (hlower.role h .body))
  exact .optional (h.get? .value) fun _ _ => hlower.expr

theorem lambdaParameters (h : Alike c c') :
    Keeps lower [lambdaParameters c] [lambdaParameters c'] := by
  rw [Plan.lambdaParameters, Plan.lambdaParameters, h.line]
  have hrole := h.role .parameters (by decide)
  rcases Cst.rel_cases hrole with ⟨hl, hl'⟩ | ⟨l, l', hl, hl', hll'⟩
  · rw [hl, hl']
    exact .refl _
  · rw [hl, hl']
    simp only [hll'.kind]
    split
    · rw [inferredParameter hll']
      exact .refl _
    · next hk =>
      have hidentifiers := Cst.forall₂_filter (p := fun d => d.kind = .identifier)
        (hll'.named_alike (by rw [hk]; decide)) fun d d' hd => by rw [hd.kind]
      rw [Cst.map_eq_of_forall₂ hidentifiers fun d d' hd => inferredParameter hd]
      exact .refl _
    · exact hlower.parameters (.some hll') _

theorem lambda (h : Alike c c') : Keeps lower [lambda c] [lambda c'] := by
  rw [Plan.lambda, Plan.lambda, h.line]
  refine .node _ _ _ (.cons (hlower.lambdaParameters h) ?_)
  rcases Cst.rel_cases (h.get? .body) with ⟨hb, hb'⟩ | ⟨b, b', hb, hb', hbb'⟩
  · rw [hb, hb']
    exact .refl _
  · rw [hb, hb']
    have htest := hbb'.test (q := fun k => k = .block) (by decide)
    simp only
    by_cases hk : b.kind = .block
    · have hk' : b'.kind = .block := by simpa [hk] using htest
      rw [if_pos hk, if_pos hk']
      exact hlower b b' hbb'
    · have hk' : b'.kind ≠ .block := by simpa [hk] using htest
      rw [if_neg hk, if_neg hk']
      exact hlower.expr hbb'

theorem assignment (h : Alike c c') : Keeps lower [assignment c] [assignment c'] := by
  have hoperator := Cst.map_eq_of_rel (g := Cst.text) (h.role .operator (by decide))
    fun _ _ hd => hd.text
  have hparts := (hlower.role h .left).append (hlower.role h .right)
  rw [Plan.assignment, Plan.assignment, hoperator, h.line]
  split
  · exact .node _ _ _ hparts
  · exact .node _ _ _ hparts

omit hlower in
theorem operatorText (h : Alike c c') : c'.operatorText = c.operatorText := by
  have hoperator := Cst.rel_cases (h.role .operator (by decide))
  have hmark : Option.Rel Alike (c.children.find? fun d => !d.isNamed)
      (c'.children.find? fun d => !d.isNamed) := by
    refine Cst.rel_alike (Cst.rel_find? h.children fun d d' hd => by rw [hd.isNamed]) ?_
    intro d hd hparens
    have hfound := List.find?_some hd
    rw [Cst.isNamed, hparens] at hfound
    cases hfound
  rw [Cst.operatorText, Cst.operatorText]
  rcases hoperator with ⟨ho, ho'⟩ | ⟨o, o', ho, ho', hoo'⟩
  · rw [ho, ho', Cst.map_eq_of_rel hmark fun d d' hd => hd.text]
  · rw [ho, ho']
    exact hoo'.text

theorem operator (h : Alike c c') : Keeps lower [operator c] [operator c'] := by
  rw [Plan.operator, Plan.operator, operatorText h, h.line]
  exact .node _ _ _ (hlower.holes h.named)

theorem fieldAccess (h : Alike c c') : Keeps lower [fieldAccess c] [fieldAccess c'] := by
  rw [Plan.fieldAccess, Plan.fieldAccess, h.line]
  rcases Cst.rel_cases (h.get? .object) with ⟨ho, ho'⟩ | ⟨o, o', ho, ho', hoo'⟩
  · rw [ho, ho']
    exact hlower.nest _ h
  · rcases Cst.rel_cases (h.get? .field) with ⟨hf, hf'⟩ | ⟨f, f', hf, hf', hff'⟩
    · rw [ho, ho', hf, hf']
      exact hlower.nest _ h
    · rw [ho, ho', hf, hf']
      exact .node _ _ _ (.cons (hlower o o' hoo') (hlower f f' hff'))

theorem arrayAccess (h : Alike c c') : Keeps lower [arrayAccess c] [arrayAccess c'] := by
  rw [Plan.arrayAccess, Plan.arrayAccess, h.line]
  rcases Cst.rel_cases (h.get? .array) with ⟨ha, ha'⟩ | ⟨a, a', ha, ha', haa'⟩
  · rw [ha, ha']
    exact hlower.nest _ h
  · rcases Cst.rel_cases (h.get? .index) with ⟨hi, hi'⟩ | ⟨i, i', hi, hi', hii'⟩
    · rw [ha, ha', hi, hi']
      exact hlower.nest _ h
    · rw [ha, ha', hi, hi']
      exact .node _ _ _ (.cons (hlower a a' haa') (hlower.expr hii'))

theorem methodCall (h : Alike c c') : Keeps lower [methodCall c] [methodCall c'] := by
  simp only [Plan.methodCall, h.line, name_alike h, h.isSome_get? .name]
  refine .node _ _ _ (.cons ?_ ?_)
  · rcases Cst.rel_cases (h.get? .object) with ⟨ho, ho'⟩ | ⟨o, o', ho, ho', hoo'⟩
    · rw [ho, ho']
      exact .refl _
    · rw [ho, ho']
      simp only
      split
      · exact .node _ _ _ (.cons (hlower o o' hoo') (.refl _))
      · exact .refl _
  · rcases Cst.rel_cases (h.get? .arguments) with ⟨ha, ha'⟩ | ⟨a, a', ha, ha', haa'⟩
    · rw [ha, ha']
      exact .refl _
    · rw [ha, ha']
      exact hlower a a' haa'

theorem creation (h : Alike c c') : Keeps lower [creation c] [creation c'] := by
  rw [Plan.creation, Plan.creation, h.line, type_alike h]
  refine .node _ _ _ (.cons (.refl _) (hlower.holes (Cst.forall₂_filter h.named ?_)))
  intro d d' hd
  rw [hd.field, hd.isComment]

theorem enclose (h : Alike c c') (hp : Keeps lower [p] [p']) :
    Keeps lower [enclose p c] [enclose p' c'] := by
  rw [Plan.enclose, Plan.enclose, operatorText h, h.line]
  refine .node _ _ _ (.cons hp (hlower.holes (Cst.forall₂_filter h.named fun d d' hd => ?_)))
  rw [hd.field]

/-- A chain keeps its terms also where a left operand becomes a level of it. -/
theorem chain {c c' : Cst} (h : Alike c c') (hk : c.kind = .binaryExpression)
    (hcomment : ∀ d ts, d.isComment = true → lower d = .ok ts → ts = [])
    (hlevel : ∀ d, d.kind = .binaryExpression → Keeps lower [.hole d] [Plan.chain d]) :
    Keeps lower [chain c] [chain c'] := by
  rcases Cst.rel_cases (h.get? .left) with ⟨hl, hl'⟩ | ⟨l, l', hl, hl', hll'⟩
  · rw [chain_single (by simp [hl]), chain_single (by simp [hl'])]
    exact hlower.operator h
  · by_cases hbinary : l.kind = .binaryExpression
    · have halike := hll'.alike (by rw [hbinary]; decide)
      rw [chain_around hl hbinary, chain_around hl' (halike.kind.trans hbinary)]
      exact hlower.enclose h (chain halike hbinary hcomment hlevel)
    · rw [chain_single (c := c) (by simpa [hl] using hbinary)]
      by_cases hbinary' : l'.kind = .binaryExpression
      · rw [chain_around hl' hbinary']
        have hfirst := (hlower l l' hll').trans (hlevel l' hbinary')
        exact (operator_enclose h.conforms hk hl hcomment).trans (hlower.enclose h hfirst)
      · rw [chain_single (c := c') (by simpa [hl'] using hbinary')]
        exact hlower.operator h
termination_by c.weight
decreasing_by exact Cst.weight_lt_of_get? hl

/-- One level of lowering keeps its terms. -/
theorem ofCst (h : Alike c c')
    (hcomment : ∀ d ts, d.isComment = true → lower d = .ok ts → ts = [])
    (hlevel : ∀ d, d.kind = .binaryExpression → Keeps lower [.hole d] [Plan.chain d]) :
    Keeps lower (ofCst c) (ofCst c') := by
  have htoken (kind : Syntax.Kind) :
      Keeps lower [token kind c.text c.line] [token kind c'.text c'.line] := by
    rw [h.text, h.line]
    exact .refl _
  have hleaf (kind : Syntax.Kind) : Keeps lower [leaf kind c.line] [leaf kind c'.line] := by
    rw [h.line]
    exact .refl _
  rw [Plan.ofCst, Plan.ofCst, h.kind]
  cases hkind : c.kind with
  | lineComment | blockComment => exact .refl _
  | decimalIntegerLiteral | hexIntegerLiteral | octalIntegerLiteral | binaryIntegerLiteral
  | decimalFloatingPointLiteral | hexFloatingPointLiteral | trueLiteral | falseLiteral
  | characterLiteral | stringLiteral | nullLiteral | classLiteral => exact htoken .literal
  | packageDeclaration =>
    have hpackage : Keeps lower (package c) (package c') := by
      rw [package_alike h hkind]
      exact .refl _
    exact hpackage
  | importDeclaration =>
    have himport : Keeps lower (import_ c) (import_ c') := by
      rw [import_alike h hkind]
      exact .refl _
    exact himport
  | classDeclaration | recordDeclaration | interfaceDeclaration | annotationTypeDeclaration
  | enumDeclaration => exact hlower.typeDeclaration h _ (by simp [hkind])
  | classBody | interfaceBody | enumBody | annotationTypeBody => exact hlower.body h .none
  | fieldDeclaration | constantDeclaration | localVariableDeclaration =>
    exact hlower.variableDefs h (by simp [hkind])
  | methodDeclaration | annotationTypeElementDeclaration => exact hlower.method h
  | constructorDeclaration | compactConstructorDeclaration => exact hlower.constructor_ h
  | formalParameter | spreadParameter | catchFormalParameter =>
    exact hlower.parameter h (by simp [hkind])
  | resource => exact hlower.resource h
  | enhancedForStatement => exact hlower.forEach h
  | lambdaExpression => exact hlower.lambda h
  | modifiers => exact hlower.modifierList h
  | annotationUse | plainAnnotationUse => exact hlower.annotated h
  | parenthesizedExpression => exact hlower.holes h.named
  | assignmentExpression => exact hlower.assignment h
  | binaryExpression => exact hlower.chain h hkind hcomment hlevel
  | unaryExpression | updateExpression => exact hlower.operator h
  | fieldAccess => exact hlower.fieldAccess h
  | methodInvocation => exact hlower.methodCall h
  | arrayAccess => exact hlower.arrayAccess h
  | objectCreationExpression | arrayCreationExpression => exact hlower.creation h
  | this => exact hleaf .literalThis
  | super => exact hleaf .literalSuper
  | identifier | typeIdentifier => exact htoken .ident
  | scopedIdentifier =>
    have hname : Keeps lower [qualified c.typeName c.line] [qualified c'.typeName c'.line] := by
      rw [h.typeName, h.line]
      exact .refl _
    exact hname
  | integralType | floatingPointType | booleanType | voidType | genericType
  | scopedTypeIdentifier | arrayType =>
    have htype : Keeps lower [typeRef (some c) c.line] [typeRef (some c') c'.line] := by
      rw [typeRef_alike (.some h), h.line]
      exact .refl _
    exact htype
  | _ => exact hlower.nest _ h

end KeepsOpened

end Plan

/-- Without parentheses a tree is lowered as with them. -/
theorem Cst.Opens.lower {depth : Nat} {c c' : Cst} {ts : List Term} (h : c.Opens c')
    (hts : c.lower depth = .ok ts) : c'.lower depth = .ok ts := by
  induction depth generalizing c c' ts with
  | zero => cases hts
  | succ depth ih =>
    have hlower : Plan.KeepsOpened (Cst.lower depth) := by
      intro d d' hd us hus
      rw [Plan.fillAll_singleton] at hus ⊢
      exact ih hd hus
    have hlevel : ∀ d : Cst, d.kind = .binaryExpression →
        Plan.Keeps (Cst.lower depth) [.hole d] [Plan.chain d] := by
      intro d hk us hus
      rw [Plan.fillAll_singleton] at hus
      have hplan : Plan.ofCst d = [Plan.chain d] := by
        rw [Plan.ofCst, hk]
        rfl
      have hdeeper : d.lower (depth + 1) = .ok us := lower_of_le (Nat.le_succ depth) hus
      rwa [Cst.lower, hplan] at hdeeper
    rcases h.cases with halike | ⟨d, d', hk, hinner, -, -, -, hd, rfl⟩
    · exact hlower.ofCst halike (fun d us => lower_of_isComment) hlevel ts hts
    · have hplan : Plan.ofCst c = Plan.holes c.named := by
        rw [Plan.ofCst, hk]
        rfl
      rw [Cst.lower, hplan] at hts
      have hone := (Plan.filledAll_of_fillAll hts).drop_comments
        fun e _ us hus hcomment => lower_of_isComment hcomment hus
      rw [hinner] at hone
      rw [lower_inRole]
      exact lower_of_le (Nat.le_succ depth) (ih hd (Plan.filledAll_singleton.mp hone))

theorem Cst.Opens.toTerm {c c' : Cst} {T : Term} (h : c.Opens c') (hk : c.kind = .program)
    (hT : c.toTerm = .ok T) : c'.toTerm = .ok T := by
  have halike := h.alike (by rw [hk]; decide)
  have hlower : Plan.KeepsOpened (Cst.lower maxDepth) := by
    intro d d' hd us hus
    rw [Plan.fillAll_singleton] at hus ⊢
    exact hd.lower hus
  rw [Cst.toTerm] at hT
  split at hT
  · next ts hts =>
    rw [Cst.toTerm, hlower.holes halike.named ts hts]
    exact hT
  · cases hT

/-- Parentheses are transparent. A program that is not nested too deeply and the program without
some of its parentheses, which may stand anywhere, also where the grammar asks for them, are
lowered to the same tree. -/
theorem Cst.toTree_of_unwraps {c c' : Cst} (hc : c.conforms = true) (hk : c.kind = .program)
    (h : c.Unwraps c') (hdeep : ∀ line limit, c.toTree ≠ .error (.nestingTooDeep line limit)) :
    ∃ t, c.toTree = .ok t ∧ c'.toTree = .ok t := by
  rcases toTree_accepted hc with ⟨-, line, herror⟩ | ⟨T, t, hT, ht, -⟩
  · exact absurd herror (hdeep line maxDepth)
  · refine ⟨t, ht, ?_⟩
    rw [toTree, Opens.toTerm ⟨hc, h⟩ hk hT]
    rw [toTree, hT] at ht
    exact ht

mutual

theorem Cst.Unwraps.refl : ∀ c : Cst, c.Unwraps c
  | .node _ _ _ _ cs => .node (Cst.Unwraps.reflAll cs)

theorem Cst.Unwraps.reflAll : ∀ cs : List Cst, List.Forall₂ Cst.Unwraps cs cs
  | [] => .nil
  | c :: cs => .cons (Cst.Unwraps.refl c) (Cst.Unwraps.reflAll cs)

end

theorem Cst.toTree_of_unwraps_nested :
    let mark := fun text : String => Cst.node .token none 1 text []
    let sign := fun text : String => Cst.node .token (some .operator) 1 text []
    let word := fun (role : Option Field) (text : String) => Cst.node .identifier role 1 text []
    let parens := fun (role : Option Field) (d : Cst) =>
      Cst.node .parenthesizedExpression role 1 "" [mark "(", d, mark ")"]
    let sum := fun (role : Option Field) (left : Cst) (right : String) =>
      Cst.node .binaryExpression role 1 "" [left, sign "+", word (some .right) right]
    let call := fun object : Cst => Cst.node .methodInvocation none 1 ""
      [object, mark ".", word (some .name) "f",
        Cst.node .argumentList (some .arguments) 1 "" [mark "(", mark ")"]]
    let assign := fun value : Cst => Cst.node .assignmentExpression none 1 ""
      [word (some .left) "y", sign "=", value]
    let program := fun (a b c : Cst) => Cst.node .program none 1 "" ([a, b, c].map fun d =>
      Cst.node .expressionStatement none 1 "" [d, mark ";"])
    let c := program (sum none (parens (some .left) (sum none (word (some .left) "a") "b")) "c")
      (call (parens (some .object) (parens none (word none "x"))))
      (assign (parens (some .right) (parens none (word none "z"))))
    let c' := program (sum none (sum (some .left) (word (some .left) "a") "b") "c")
      (call (word (some .object) "x")) (assign (word (some .right) "z"))
    c = Parser.parse "(a + b) + c; ((x)).f(); y = ((z));" ∧
      c' = Parser.parse "a + b + c; x.f(); y = z;" ∧
      (c.conforms = true ∧ c.kind = .program ∧ c.Unwraps c' ∧
        ∀ line limit, c.toTree ≠ .error (.nestingTooDeep line limit)) ∧
      ∃ t, c.toTree = .ok t ∧ c'.toTree = .ok t := by
  intro mark sign word parens sum call assign program c c'
  have hfacts : c.conforms = true ∧ c.height ≤ maxDepth + 1 := by decide +kernel
  have hopen : c.Unwraps c' := by
    have hinner (role : Option Field) (text : String) :
        (parens role (parens none (word none text))).Unwraps (word role text) := by
      have hone : (parens none (word none text)).Unwraps (word none text) :=
        .parentheses (c := parens none (word none text)) rfl rfl rfl (.refl (word none text))
      exact .parentheses (c := parens role (parens none (word none text))) rfl rfl rfl hone
    have hsum := Unwraps.refl (sum none (word (some .left) "a") "b")
    have hparens : (parens (some .left) (sum none (word (some .left) "a") "b")).Unwraps
        (sum (some .left) (word (some .left) "a") "b") :=
      .parentheses (c := parens (some .left) (sum none (word (some .left) "a") "b"))
        rfl rfl rfl hsum
    have hvalue := List.Forall₂.cons (hinner (some .right) "z") .nil
    exact .node (.cons (.node (.cons (.node (.cons hparens (Unwraps.reflAll _)))
        (Unwraps.reflAll _)))
      (.cons (.node (.cons (.node (.cons (hinner _ "x") (Unwraps.reflAll _)))
        (Unwraps.reflAll _)))
      (.cons (.node (.cons (.node (.cons (.refl _) (.cons (.refl _) hvalue)))
        (Unwraps.reflAll _))) .nil)))
  have hdeep : ∀ line limit, c.toTree ≠ .error (.nestingTooDeep line limit) := by
    intro line limit herror
    obtain ⟨T, hT⟩ := exists_toTerm ⟨hfacts.1, hfacts.2⟩
    rw [toTree_of_toTerm hfacts.1 hT] at herror
    cases herror
  exact ⟨by decide +kernel, by decide +kernel, ⟨hfacts.1, rfl, hopen, hdeep⟩,
    toTree_of_unwraps hfacts.1 rfl hopen hdeep⟩

end ArchLint.Java
