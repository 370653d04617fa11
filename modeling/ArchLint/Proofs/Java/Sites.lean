import ArchLint.Java.Lowering
import ArchLint.Proofs.Java.Conformance

/-!
# Binding sites

The places of a source where a variable or a parameter gets its name, in the order of the source.
Which construct a node stands in decides whether it binds: a parameter of a record is a variable,
and the names in front of a lambda's arrow are parameters even without a type.

Most of the grammar binds nothing. `quiet` lists the kinds of node inside which, annotations and
interpolated strings apart, no site can be; all that a construct binds is then found by asking for
its other children.
-/

namespace ArchLint.Java

namespace Kind

def declaresVariables (k : Kind) : Bool :=
  k matches .fieldDeclaration | .constantDeclaration | .localVariableDeclaration

def isCallable (k : Kind) : Bool :=
  k matches .methodDeclaration | .constructorDeclaration | .lambdaExpression

def isDependent (k : Kind) : Bool :=
  k matches .variableDeclarator | .formalParameter | .spreadParameter | .formalParameters |
    .inferredParameters

def bindsItself (k : Kind) : Bool :=
  k matches .resource | .enhancedForStatement | .catchFormalParameter

def isProper (k : Kind) : Bool :=
  k ≠ .spreadParameter

def isOrnate (k : Kind) : Bool :=
  k matches .annotationUse | .plainAnnotationUse | .stringInterpolation

theorem isOrnate_of_isAnnotating {k : Kind} (h : k.isAnnotating = true) : k.isOrnate = true := by
  unfold isAnnotating at h
  split at h
  · rfl
  · rfl
  · cases h

end Kind

namespace Cst

/-- The name in a declaration. -/
def declaredText (c : Cst) : String :=
  ((c.get? .name).map text).getD ""

/-- The node stands where an identifier names a parameter of a lambda. -/
def namesParameter (owner : Kind) (c : Cst) : Bool :=
  owner = .inferredParameters || (owner = .lambdaExpression && c.field = some .parameters)

/-- What a node binds itself, inside a construct of kind `owner`. -/
def binding? (owner : Kind) (c : Cst) : Option (Syntax.Kind × String) :=
  match c.kind with
  | .variableDeclarator =>
    if owner.declaresVariables then some (.variableDef, c.declaredText) else none
  | .formalParameter =>
    if owner = .recordDeclaration then some (.variableDef, c.declaredText)
    else if owner.isCallable then some (.parameterDef, c.declaredText)
    else none
  | .spreadParameter =>
    if owner.isCallable then
      some (.parameterDef,
        ((c.children.find? (·.kind = .variableDeclarator)).map declaredText).getD "")
    else none
  | .resource => (c.get? .name).map fun name => (.variableDef, name.text)
  | .enhancedForStatement => some (.variableDef, c.declaredText)
  | .catchFormalParameter => some (.parameterDef, c.declaredText)
  | .identifier =>
    if c.namesParameter owner then some (.parameterDef, c.text) else none
  | _ => none

mutual

/-- The binding sites of a node and of what stands inside it, in the order of the source. Nodes of
kinds that are not entered are taken by themselves. -/
def sites (enters : Kind → Bool) (owner : Kind) : Cst → List (Syntax.Kind × String)
  | .node kind field line text children =>
    (binding? owner (.node kind field line text children)).toList ++
      if enters kind then
        -- a list of parameters belongs to the construct around it
        sitesAll enters (if kind = .formalParameters then owner else kind) children
      else []

def sitesAll (enters : Kind → Bool) (owner : Kind) : List Cst → List (Syntax.Kind × String)
  | [] => []
  | c :: cs => sites enters owner c ++ sitesAll enters owner cs

end

def bindingSites (program : Cst) : List (Syntax.Kind × String) :=
  program.sites (fun _ => true) .program

/-- The binding sites of a program, without those inside the declarator of a spread parameter. -/
def properSites (program : Cst) : List (Syntax.Kind × String) :=
  program.sites Kind.isProper .program

mutual

def everywhere (p : Cst → Bool) : Cst → Bool
  | .node kind field line text children =>
    p (.node kind field line text children) && allEverywhere p children

def allEverywhere (p : Cst → Bool) : List Cst → Bool
  | [] => true
  | c :: cs => everywhere p c && allEverywhere p cs

end

def isPlain (c : Cst) : Bool :=
  c.everywhere fun d => !d.kind.isOrnate &&
    (d.kind ≠ .annotationTypeElementDeclaration || (d.get? .value).isNone)

def sparesSpreads (c : Cst) : Bool :=
  c.everywhere fun d => d.kind ≠ .spreadParameter || d.children.all fun e => (e.get? .value).isNone

/-- A conforming tree in which only code binds. -/
structure Simple (c : Cst) : Prop where
  conforms : c.conforms = true
  plain : c.isPlain = true

variable {enters : Kind → Bool} {owner : Kind} {c d : Cst}

theorem sites_eq (enters : Kind → Bool) (owner : Kind) (c : Cst) :
    c.sites enters owner = (binding? owner c).toList ++
      if enters c.kind then
        sitesAll enters (if c.kind = .formalParameters then owner else c.kind) c.children
      else [] := by
  obtain ⟨kind, field, line, text, children⟩ := c
  rfl

theorem sitesAll_eq (enters : Kind → Bool) (owner : Kind) (cs : List Cst) :
    sitesAll enters owner cs = cs.flatMap (sites enters owner) := by
  induction cs with
  | nil => rfl
  | cons c cs ih => rw [sitesAll, List.flatMap_cons, ih]

theorem everywhere_iff {p : Cst → Bool} :
    c.everywhere p = true ↔ p c = true ∧ ∀ d ∈ c.children, d.everywhere p = true := by
  have hall (cs : List Cst) :
      allEverywhere p cs = true ↔ ∀ d ∈ cs, d.everywhere p = true := by
    induction cs with
    | nil => simp [allEverywhere]
    | cons d cs ih => simp [allEverywhere, ih]
  obtain ⟨kind, field, line, text, children⟩ := c
  rw [everywhere, Bool.and_eq_true, hall]
  rfl

namespace Simple

theorem child (hc : c.Simple) (hd : d ∈ c.children) : d.Simple :=
  ⟨conforms_child hc.conforms hd, (everywhere_iff.mp hc.plain).2 d hd⟩

theorem get? (hc : c.Simple) {f : Field} (hd : c.get? f = some d) : d.Simple :=
  hc.child (mem_of_get? hd).1

theorem named (hc : c.Simple) (hd : d ∈ c.named) : d.Simple :=
  hc.child (List.mem_filter.mp hd).1

theorem not_isOrnate (hc : c.Simple) : c.kind.isOrnate = false := by
  have h := (everywhere_iff.mp hc.plain).1
  rw [Bool.and_eq_true] at h
  simpa using h.1

theorem get?_value (hc : c.Simple) (hk : c.kind = .annotationTypeElementDeclaration) :
    c.get? .value = none := by
  have h := (everywhere_iff.mp hc.plain).1
  rw [Bool.and_eq_true] at h
  simpa [hk] using h.2

end Simple

end Cst

namespace Grammar

/-- Kinds of node inside which nothing is bound. -/
def quiet : List Kind :=
  types ++ literals ++ names ++ moduleDirectives ++
    [ .token, .lineComment, .blockComment, .stringFragment, .multilineStringFragment,
      .escapeSequence, .classLiteral, .pattern, .typePattern, .recordPattern, .recordPatternBody,
      .recordPatternComponent, .underscorePattern, .this, .super, .breakStatement,
      .continueStatement, .catchType, .moduleDeclaration, .moduleBody, .requiresModifier,
      .packageDeclaration, .importDeclaration, .asterisk, .modifiers, .typeParameters,
      .typeParameter, .typeBound, .superclass, .superInterfaces, .typeList, .permits,
      .extendsInterfaces, .receiverParameter, .throws, .typeArguments, .wildcard, .dimensions ]

def quietBut (m : Content) (roles : List Field) : Bool :=
  m.slots.all fun s => roles.any (fun f => s.field = some f) ||
    s.kinds.all fun k => quiet.contains k || k.isOrnate

/-- All that is bound inside a node of kind `k`, if its children are as `m` says, is bound in these
roles. -/
def gathers (m : Content) (k : Kind) (roles : List Field) : Bool :=
  quietBut m roles && k ∉ [.inferredParameters, .formalParameters, .spreadParameter] &&
    (k ≠ .lambdaExpression || .parameters ∈ roles)

/-- All that is bound there is bound in these roles, in this order, and in each role once. -/
def confines (m : Content) (k : Kind) (roles : List Field) : Bool :=
  m.ordered roles && gathers m k roles

/-- What a child in this role binds does not depend on the kind `k` of the node around it. -/
def frees (k : Kind) (f : Field) : Bool :=
  ((kindsIn k (some f)).all fun k => !k.isDependent) && k ≠ .inferredParameters &&
    (k ≠ .lambdaExpression || f ≠ .parameters)

/-- What the children of a node of kind `k` bind does not depend on its being around them. -/
def nests (k : Kind) : Bool :=
  ((content k).slots.all fun s => s.kinds.all fun k => !k.isDependent) &&
    k ∉ [.inferredParameters, .formalParameters, .spreadParameter, .lambdaExpression]

/-- Inside a node of kind `k` all is quiet besides nodes of these kinds, and what is quiet names no
parameter. -/
def lists (k : Kind) (ks : List Kind) : Bool :=
  .token ∉ ks && (content k).slots.all fun s => s.kinds.all fun k =>
    ks.contains k || (quiet.contains k && k ≠ .identifier)

theorem mem_quiet_of_isComment {k : Kind} (hk : k.isComment = true) : k ∈ quiet := by
  rcases Kind.isComment_iff.mp hk with rfl | rfl
  · decide
  · decide

theorem quietBut_nil_of_quiet : ∀ k ∈ quiet, quietBut (content k) [] = true := by
  decide

end Grammar

namespace Cst

variable {enters : Kind → Bool} {owner : Kind} {m : Content} {roles : List Field} {c d : Cst}

theorem namesParameter_of_ne (hi : owner ≠ .inferredParameters) (hl : owner ≠ .lambdaExpression) :
    c.namesParameter owner = false := by
  simp [namesParameter, hi, hl]

theorem binding?_of_quiet (hk : c.kind ∈ Grammar.quiet)
    (hn : c.kind = .identifier → c.namesParameter owner = false) : binding? owner c = none := by
  have hnot : ∀ k ∈ Grammar.quiet, k ∉ ([.variableDeclarator, .formalParameter, .spreadParameter,
      .resource, .enhancedForStatement, .catchFormalParameter] : List Kind) := by decide
  have hkind := hnot c.kind hk
  rw [binding?]
  split
  · next h => simp [h] at hkind
  · next h => simp [h] at hkind
  · next h => simp [h] at hkind
  · next h => simp [h] at hkind
  · next h => simp [h] at hkind
  · next h => simp [h] at hkind
  · next h =>
    rw [hn h]
    rfl
  · rfl

theorem binding?_program (hk : c.kind.bindsItself = false) : binding? .program c = none := by
  rw [binding?]
  split
  · rfl
  · rfl
  · rfl
  · next h =>
    rw [h] at hk
    cases hk
  · next h =>
    rw [h] at hk
    cases hk
  · next h =>
    rw [h] at hk
    cases hk
  · rfl
  · rfl

theorem kind_mem_quiet (hc : c.Simple) (hm : m.Fits c.parts)
    (hq : Grammar.quietBut m roles = true) (hd : d ∈ c.children)
    (hr : d.playsOneOf roles = false) : d.kind ∈ Grammar.quiet := by
  rcases exists_slot_of_mem hm hd with hcomment | ⟨s, hs, hfield, hkind⟩
  · exact Grammar.mem_quiet_of_isComment hcomment
  · have hslot := List.all_eq_true.mp hq s hs
    rw [playsOneOf, hfield] at hr
    rw [hr, Bool.false_or] at hslot
    have hcase := List.all_eq_true.mp hslot d.kind hkind
    rw [(hc.child hd).not_isOrnate, Bool.or_false] at hcase
    exact List.contains_iff_mem.mp hcase

theorem sites_of_quiet {c : Cst} {owner : Kind} (hc : c.Simple) (hk : c.kind ∈ Grammar.quiet)
    (hn : c.kind = .identifier → c.namesParameter owner = false) : c.sites enters owner = [] := by
  rw [sites_eq, binding?_of_quiet hk hn, sitesAll_eq]
  have hplain : ∀ k ∈ Grammar.quiet, k ∉ ([.formalParameters, .inferredParameters,
      .lambdaExpression] : List Kind) := by decide
  have hkind := hplain c.kind hk
  simp only [List.mem_cons, List.not_mem_nil, or_false, not_or] at hkind
  have hchildren : c.children.flatMap (sites enters c.kind) = [] := by
    rw [List.flatMap_eq_nil_iff]
    intro d hd
    have hquiet := kind_mem_quiet hc (fits_parts hc.conforms)
      (Grammar.quietBut_nil_of_quiet c.kind hk) hd rfl
    exact sites_of_quiet (hc.child hd) hquiet fun _ => namesParameter_of_ne hkind.2.1 hkind.2.2
  rw [if_neg hkind.1, hchildren]
  split <;> rfl
termination_by c.weight
decreasing_by
  have := weight_le_of_mem hd
  rw [c.weight_eq]
  omega

theorem flatMap_eq_flatMap_filter {α : Type} {p : Cst → Bool} {f g : Cst → List α} {ds : List Cst}
    (hin : ∀ d ∈ ds, p d = true → f d = g d) (hout : ∀ d ∈ ds, p d = false → f d = []) :
    ds.flatMap f = (ds.filter p).flatMap g := by
  induction ds with
  | nil => rfl
  | cons d ds ih =>
    have hrest := ih (fun e he => hin e (List.mem_cons_of_mem d he))
      fun e he => hout e (List.mem_cons_of_mem d he)
    rw [List.flatMap_cons, hrest]
    cases hp : p d with
    | true => rw [List.filter_cons_of_pos hp, List.flatMap_cons, hin d List.mem_cons_self hp]
    | false =>
      rw [List.filter_cons_of_neg (by simp [hp]), hout d List.mem_cons_self hp, List.nil_append]

def sitesIn (c : Cst) (f : Field) : List (Syntax.Kind × String) :=
  (c.get? f).toList.flatMap (sites Kind.isProper c.kind)

theorem flatMap_filterMap_get? (c : Cst) (roles : List Field) :
    (roles.filterMap c.get?).flatMap (sites Kind.isProper c.kind) = roles.flatMap c.sitesIn := by
  induction roles with
  | nil => rfl
  | cons f roles ih =>
    rw [List.flatMap_cons, ← ih, sitesIn, List.filterMap_cons]
    cases c.get? f <;> simp

/-- Children that are in none of the roles are quiet, and no such child names a parameter. -/
theorem sites_of_gathers (roles : List Field) (hc : c.Simple) (hm : m.Fits c.parts)
    (h : Grammar.gathers m c.kind roles = true) :
    c.sites Kind.isProper owner = (binding? owner c).toList ++
      (c.children.filter (playsOneOf roles)).flatMap (sites Kind.isProper c.kind) := by
  simp only [Grammar.gathers, Bool.and_eq_true, Bool.or_eq_true, decide_eq_true_eq,
    List.mem_cons, List.not_mem_nil, or_false, not_or] at h
  obtain ⟨⟨hq, hinferred, hformal, hspread⟩, hlambda⟩ := h
  have hproper : c.kind.isProper = true := decide_eq_true hspread
  rw [sites_eq, if_pos hproper, if_neg hformal, sitesAll_eq]
  refine congrArg _ (flatMap_eq_flatMap_filter (fun _ _ _ => rfl) fun d hd hr => ?_)
  refine sites_of_quiet (hc.child hd) (kind_mem_quiet hc hm hq hd hr) fun _ => ?_
  simp only [namesParameter, hinferred, decide_false, Bool.false_or, Bool.and_eq_false_imp,
    decide_eq_true_eq, decide_eq_false_iff_not]
  intro hk hfield
  have hparameters := hlambda.resolve_left (not_not_intro hk)
  have hplays : d.playsOneOf roles = true := List.any_eq_true.mpr ⟨_, hparameters, by simp [hfield]⟩
  rw [hr] at hplays
  cases hplays

theorem sites_of_confines (roles : List Field) (hc : c.Simple) (hm : m.Fits c.parts)
    (h : Grammar.confines m c.kind roles = true) :
    c.sites Kind.isProper owner = (binding? owner c).toList ++ roles.flatMap c.sitesIn := by
  obtain ⟨ho, hg⟩ := Bool.and_eq_true_iff.mp h
  rw [sites_of_gathers roles hc hm hg, filter_playsOneOf hc.conforms hm ho, flatMap_filterMap_get?]

structure Loose (c : Cst) : Prop where
  simple : c.Simple
  independent : c.kind.isDependent = false

theorem sites_of_independent (hd : d.kind.isDependent = false)
    (hn : d.namesParameter owner = false) : d.sites enters owner = d.sites enters .program := by
  have hformal : d.kind ≠ .formalParameters := by
    intro hk
    rw [hk] at hd
    cases hd
  have hbinding : binding? owner d = binding? .program d := by
    rw [binding?, binding?]
    split
    · next hk =>
      rw [hk] at hd
      cases hd
    · next hk =>
      rw [hk] at hd
      cases hd
    · next hk =>
      rw [hk] at hd
      cases hd
    · rfl
    · rfl
    · rfl
    · rw [hn]
      rfl
    · rfl
  rw [sites_eq, sites_eq, hbinding, if_neg hformal, if_neg hformal]

theorem loose_of_get? (hc : c.Simple) {f : Field} (h : Grammar.frees c.kind f = true)
    (hd : c.get? f = some d) : d.Loose ∧ c.sitesIn f = d.properSites := by
  simp only [Grammar.frees, Bool.and_eq_true, Bool.or_eq_true, List.all_eq_true,
    decide_eq_true_eq] at h
  obtain ⟨⟨hkinds, hinferred⟩, hlambda⟩ := h
  have hindependent : d.kind.isDependent = false := by
    simpa using hkinds d.kind (kind_of_get? hc.conforms hd)
  have hfield := (mem_of_get? hd).2
  have hn : d.namesParameter c.kind = false := by
    rcases hlambda with hlambda | hfield'
    · exact namesParameter_of_ne hinferred hlambda
    · simp [namesParameter, hinferred, hfield, hfield']
  refine ⟨⟨hc.get? hd, hindependent⟩, ?_⟩
  rw [sitesIn, hd, Option.toList_some, List.flatMap_singleton, sites_of_independent hindependent hn]
  rfl

theorem properSites_of_nests (hc : c.Simple) (h : Grammar.nests c.kind = true)
    (hb : binding? .program c = none) :
    c.properSites = c.named.flatMap properSites ∧ ∀ d ∈ c.named, d.Loose := by
  simp only [Grammar.nests, Bool.and_eq_true, decide_eq_true_eq, List.mem_cons, List.not_mem_nil,
    or_false, not_or] at h
  obtain ⟨hslots, hinferred, hformal, hspread, hlambda⟩ := h
  have hloose : ∀ d ∈ c.children, d.Loose := by
    intro d hd
    refine ⟨hc.child hd, ?_⟩
    rcases exists_slot_of_mem (fits_parts hc.conforms) hd with hcomment | ⟨s, hs, -, hkind⟩
    · rcases Kind.isComment_iff.mp hcomment with hk | hk
      · rw [hk]
        rfl
      · rw [hk]
        rfl
    · simpa using List.all_eq_true.mp (List.all_eq_true.mp hslots s hs) d.kind hkind
  refine ⟨?_, fun d hd => hloose d (List.mem_filter.mp hd).1⟩
  have hproper : c.kind.isProper = true := decide_eq_true hspread
  rw [properSites, sites_eq, hb, if_pos hproper, if_neg hformal, sitesAll_eq, named]
  have hn : ∀ d : Cst, d.namesParameter c.kind = false :=
    fun d => namesParameter_of_ne hinferred hlambda
  refine flatMap_eq_flatMap_filter ?_ ?_
  · intro d hd _
    exact sites_of_independent (hloose d hd).independent (hn d)
  · intro d hd htoken
    have hk : d.kind = .token := by simpa [isNamed] using htoken
    exact sites_of_quiet (hc.child hd) (by rw [hk]; decide) fun _ => hn d

theorem sitesAll_of_lists (ks : List Kind) (hc : c.Simple) (h : Grammar.lists c.kind ks = true) :
    sitesAll enters owner c.children =
      (c.named.filter fun d => ks.contains d.kind).flatMap (sites enters owner) := by
  rw [Grammar.lists, Bool.and_eq_true, decide_eq_true_eq] at h
  obtain ⟨htoken, hslots⟩ := h
  have hnamed : c.named.filter (fun d => ks.contains d.kind) =
      c.children.filter fun d => ks.contains d.kind := by
    rw [named, List.filter_filter]
    refine List.filter_congr fun d _ => ?_
    by_cases hd : d.kind = .token
    · simp [hd, htoken]
    · simp [isNamed, hd]
  rw [sitesAll_eq, hnamed]
  refine flatMap_eq_flatMap_filter (fun _ _ _ => rfl) fun d hd hout => ?_
  have hquiet : d.kind ∈ Grammar.quiet ∧ d.kind ≠ .identifier := by
    rcases exists_slot_of_mem (fits_parts hc.conforms) hd with hcomment | ⟨s, hs, -, hkind⟩
    · rcases Kind.isComment_iff.mp hcomment with hk | hk
      · rw [hk]
        decide
      · rw [hk]
        decide
    · have hcase := List.all_eq_true.mp (List.all_eq_true.mp hslots s hs) d.kind hkind
      rw [hout, Bool.false_or] at hcase
      simpa using hcase
  exact sites_of_quiet (hc.child hd) hquiet.1 fun hk => absurd hk hquiet.2

theorem sites_formalParameters (hc : c.Simple) (hk : c.kind = .formalParameters) :
    c.sites Kind.isProper owner =
      (c.named.filter Plan.isParameter).flatMap (sites Kind.isProper owner) := by
  have hlisted : (fun d : Cst => [Kind.formalParameter, .spreadParameter].contains d.kind) =
      Plan.isParameter := by
    funext d
    unfold Plan.isParameter
    split <;> simp_all
  have hbinding : binding? owner c = none := by simp [binding?, hk]
  rw [sites_eq, hbinding, hk, if_pos rfl, ← hlisted,
    ← sitesAll_of_lists [.formalParameter, .spreadParameter] hc (by rw [hk]; decide)]
  rfl

theorem sites_inferredParameters (hc : c.Simple) (hk : c.kind = .inferredParameters) :
    c.sites Kind.isProper owner =
      (c.named.filter fun d => d.kind = .identifier).flatMap
        (sites Kind.isProper .inferredParameters) := by
  have hlisted : c.named.filter (fun d => d.kind = .identifier) =
      c.named.filter fun d => [Kind.identifier].contains d.kind :=
    List.filter_congr fun d _ => by simp
  have hbinding : binding? owner c = none := by simp [binding?, hk]
  rw [sites_eq, hbinding, hk, if_neg (by decide : Kind.inferredParameters ≠ .formalParameters),
    hlisted, ← sitesAll_of_lists [.identifier] hc (by rw [hk]; decide)]
  rfl

theorem sites_of_isParameter (hc : c.Simple) (hk : Plan.isParameter c = true) :
    c.sites Kind.isProper owner = (binding? owner c).toList := by
  cases hkind : c.kind with
  | formalParameter =>
    rw [sites_of_confines [] hc (fits_parts hc.conforms) (by rw [hkind]; decide),
      List.flatMap_nil, List.append_nil]
  | spreadParameter =>
    rw [sites_eq, hkind]
    exact List.append_nil _
  | _ => simp [Plan.isParameter, hkind] at hk

theorem sites_identifier (hc : c.Simple) (hk : c.kind = .identifier)
    (hn : c.namesParameter owner = true) :
    c.sites Kind.isProper owner = [(.parameterDef, c.text)] := by
  rw [sites_of_confines [] hc (fits_parts hc.conforms) (by rw [hk]; decide),
    binding?, hk]
  simp [hn]

theorem sites_in_spread (hc : c.Simple) (hk : c.kind = .spreadParameter)
    (hb : ∀ d ∈ c.children, d.get? .value = none) (hd : d ∈ c.children) :
    d.sites enters .spreadParameter = [] := by
  have hn : ∀ e : Cst, e.namesParameter .spreadParameter = false :=
    fun e => namesParameter_of_ne (by decide) (by decide)
  have hslots : ∀ s ∈ (Grammar.content .spreadParameter).slots, ∀ k ∈ s.kinds,
      k ∈ Grammar.quiet ∨ k.isOrnate = true ∨ k = .variableDeclarator := by decide
  rcases exists_slot_of_mem (fits_parts hc.conforms) hd with hcomment | ⟨s, hs, -, hkind⟩
  · exact sites_of_quiet (hc.child hd) (Grammar.mem_quiet_of_isComment hcomment) fun _ => hn d
  · rw [hk] at hs
    rcases hslots s hs d.kind hkind with hquiet | hornate | hdeclarator
    · exact sites_of_quiet (hc.child hd) hquiet fun _ => hn d
    · rw [(hc.child hd).not_isOrnate] at hornate
      cases hornate
    · -- inside the declarator only a value is not quiet
      have hnone := hb d hd
      rw [get?, List.find?_eq_none] at hnone
      have hchildren : d.children.flatMap (sites enters d.kind) = [] := by
        rw [List.flatMap_eq_nil_iff]
        intro e he
        have hplays : e.playsOneOf [.value] = false := by simpa [playsOneOf] using hnone e he
        have hquiet := kind_mem_quiet (hc.child hd) (fits_parts (hc.child hd).conforms)
          (by rw [hdeclarator]; decide) he hplays
        refine sites_of_quiet ((hc.child hd).child he) hquiet fun _ => ?_
        exact namesParameter_of_ne (by rw [hdeclarator]; decide) (by rw [hdeclarator]; decide)
      have hbinding : binding? .spreadParameter d = none := by
        simp [binding?, hdeclarator, Kind.declaresVariables]
      have hformal : d.kind ≠ .formalParameters := by
        rw [hdeclarator]
        decide
      rw [sites_eq, hbinding, sitesAll_eq, if_neg hformal, hchildren]
      split <;> rfl

theorem sites_isProper {c : Cst} {owner : Kind} (hc : c.Simple) (hs : c.sparesSpreads = true) :
    c.sites Kind.isProper owner = c.sites (fun _ => true) owner := by
  obtain ⟨hhere, hbelow⟩ := everywhere_iff.mp hs
  rw [sites_eq, sites_eq, if_pos rfl]
  by_cases hk : c.kind = .spreadParameter
  · have hb : ∀ d ∈ c.children, d.get? .value = none := by simpa [hk] using hhere
    have hnone : sitesAll (fun _ => true) .spreadParameter c.children = [] := by
      rw [sitesAll_eq, List.flatMap_eq_nil_iff]
      exact fun d hd => sites_in_spread hc hk hb hd
    rw [hk, if_neg (by decide), if_neg (by decide), hnone]
  · have hproper : c.kind.isProper = true := decide_eq_true hk
    rw [if_pos hproper, sitesAll_eq, sitesAll_eq]
    refine congrArg _ (List.flatMap_congr fun d hd => ?_)
    exact sites_isProper (hc.child hd) (hbelow d hd)
termination_by c.weight
decreasing_by
  have := weight_le_of_mem hd
  rw [c.weight_eq]
  omega

theorem properSites_eq_bindingSites (hc : c.Simple) (hs : c.sparesSpreads = true) :
    c.properSites = c.bindingSites :=
  sites_isProper hc hs

end Cst

end ArchLint.Java
