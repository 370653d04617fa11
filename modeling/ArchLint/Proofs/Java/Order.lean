import Mathlib.Data.List.Flatten
import ArchLint.Proofs.Java.Arrangement
import ArchLint.Proofs.Java.Parser.Source

/-!
# Lowering and the order of lines

Every node of a lowered tree stands on a line of the concrete tree that it was made from. So the
parameters of a method, which are written in front of its body, stand on no later line than what
is in the body, and what is assigned to stands on the line of the assignment.
-/

namespace ArchLint

namespace Syntax.Term

/-- What is assigned to is on the line of the assignment, a first value shows no identifier that it
is assigned to, and parameters are not below the body. -/
structure InStep (T : Term) : Prop where
  target : T.kind = .assign → ∀ U ∈ T.children.head?, U.kind = .ident → U.line = T.line
  initial : T.kind.isInitial = true → ∀ V ∈ T.children, V.kind = .assign →
    ∀ U ∈ V.children.head?, U.kind ≠ .ident
  parameters : T.kind = .methodDef ∨ T.kind = .ctorDef →
    ∀ P ∈ T.children, P.kind = .parameters → ∀ B ∈ T.children, B.kind = .slist →
      ∀ U ∈ P.subterms, ∀ V ∈ B.subterms, U.line ≤ V.line

/-- All nodes are in step and on lines of `L`. -/
def Timely (L : Nat → Prop) (T : Term) : Prop :=
  ∀ U ∈ T.subterms, L U.line ∧ U.InStep

variable {L L' : Nat → Prop} {T : Term} {kind : Kind} {text : Option String} {line : Nat}
  {children : List Term}

theorem timely_node (hline : L line) (hstep : (node kind text line children).InStep)
    (hchildren : ∀ T ∈ children, T.Timely L) : (node kind text line children).Timely L := by
  intro U hU
  rw [subterms, List.mem_cons, mem_subtermsAll] at hU
  rcases hU with rfl | ⟨T, hT, hU⟩
  · exact ⟨hline, hstep⟩
  · exact hchildren T hT U hU

theorem timely_childless (kind : Kind) (text : Option String) (hline : L line) :
    (node kind text line []).Timely L := by
  refine timely_node hline ⟨?_, ?_, ?_⟩ (List.forall_mem_nil _)
  · intro _ U hU
    cases hU
  · intro _ V hV
    cases hV
  · intro _ P hP
    cases hP

theorem timely_segment (name : List Char) (hline : L line) : (segment name line).Timely L := by
  rcases segment_eq name line with ⟨-, h⟩ | ⟨-, h⟩
  · rw [h]
    exact timely_childless _ _ hline
  · rw [h]
    exact timely_childless _ _ hline

theorem timely_qualified (name : String) (hline : L line) : (qualified name line).Timely L := by
  have hfoldl (rest : List (List Char)) {inner : Term} (hinner : inner.Timely L) :
      (rest.foldl (fun inner s => node .dot none line [inner, segment s line]) inner).Timely L := by
    induction rest generalizing inner with
    | nil => exact hinner
    | cons s rest ih =>
      refine ih (timely_node hline ⟨nofun, nofun, ?_⟩ ?_)
      · rintro (hk | hk)
        · cases hk
        · cases hk
      · intro T hT
        rcases List.mem_pair.mp hT with rfl | rfl
        · exact hinner
        · exact timely_segment s hline
  rw [qualified]
  split
  · exact timely_childless _ _ hline
  · next first rest _ => exact hfoldl rest (timely_segment first hline)

end Syntax.Term

namespace Java

open Syntax (Term)

/-- A conforming tree in the order of its lines, all of which are in `L`. -/
structure Cst.Timely (L : Nat → Prop) (c : Cst) : Prop where
  conforms : c.conforms = true
  aligned : c.Aligned
  ordered : c.lines.Pairwise (· ≤ ·)
  within : ∀ n ∈ c.lines, L n

namespace Cst.Timely

variable {L : Nat → Prop} {c d : Cst} {f : Field}

theorem line (h : c.Timely L) : L c.line :=
  h.within c.line h.aligned.line_mem

theorem child (h : c.Timely L) (hd : d ∈ c.children) : d.Timely L where
  conforms := conforms_child h.conforms hd
  aligned := h.aligned.child hd
  ordered := h.ordered.sublist (lines_sublist_of_mem_children hd)
  within := fun n hn => h.within n ((lines_sublist_of_mem_children hd).subset hn)

theorem get? (h : c.Timely L) (hd : c.get? f = some d) : d.Timely L :=
  h.child (mem_of_get? hd).1

theorem named (h : c.Timely L) (hd : d ∈ c.named) : d.Timely L :=
  h.child (List.mem_filter.mp hd).1

theorem line_le (h : c.Timely L) {n : Nat} (hn : n ∈ c.lines) : c.line ≤ n := by
  have hhead := h.aligned.head?_lines
  have hordered := h.ordered
  cases hlines : c.lines with
  | nil =>
    rw [hlines] at hhead
    cases hhead
  | cons first rest =>
    rw [hlines] at hhead hordered hn
    cases hhead
    rcases List.mem_cons.mp hn with rfl | hn
    · exact Nat.le_refl _
    · exact (List.pairwise_cons.mp hordered).1 n hn

theorem lines_le (h : c.Timely L) {f g : Field} {d e : Cst}
    (ho : (Grammar.content c.kind).ordered [f, g] = true) (hd : c.get? f = some d)
    (he : c.get? g = some e) {m n : Nat} (hm : m ∈ d.lines) (hn : n ∈ e.lines) : m ≤ n := by
  have hpair := filter_playsOneOf h.conforms (fits_parts h.conforms) ho
  rw [List.filterMap_cons_some hd, List.filterMap_cons_some he, List.filterMap_nil] at hpair
  have hsublist : (d.lines ++ e.lines).Sublist c.lines := by
    have hchildren : [d, e].Sublist c.children := hpair ▸ List.filter_sublist
    obtain ⟨kind, field, line, text, children⟩ := c
    cases children with
    | nil => cases hchildren
    | cons first rest =>
      rw [lines_node, ← List.flatMap_cons]
      simpa [children] using hchildren.flatMap lines
  exact (List.pairwise_append.mp (h.ordered.sublist hsublist)).2.2 m hm n hn

/-- What is assigned to starts the assignment. -/
theorem line_left (h : c.Timely L) (hk : c.kind = .assignmentExpression) {left : Cst}
    (hleft : c.get? .left = some left) : left.line = c.line := by
  obtain ⟨kind, field, line, text, children⟩ := c
  obtain ⟨hfirst, -⟩ := h.aligned
  cases children with
  | nil => cases hleft
  | cons first rest =>
    obtain ⟨hline, hfield⟩ := hfirst first rfl
    rw [Cst.get?, children, List.find?_cons_of_pos (by simp [hfield hk])] at hleft
    cases hleft
    exact hline

theorem self (h : c.Timely L) : c.Timely (· ∈ c.lines) :=
  { h with within := fun _ hn => hn }

end Cst.Timely

namespace Plan

/-- If the part becomes an identifier, that stands on this line. -/
def Anchored (line : Nat) : Plan → Prop
  | .node kind _ _ _ => kind ≠ .ident
  | .done T => T.kind ≠ .ident
  | .hole c => c.isPlace = true ∧ c.line = line ∨ c.kind = .arrayInitializer

/-- The part is no assignment, or one that would be anchored anywhere, and so to no identifier. -/
def Starts : Plan → Prop
  | .node kind _ _ parts => kind = .assign → ∀ p ∈ parts.head?, ∀ line, p.Anchored line
  | .done T => T.kind = .assign → T.children = []
  | .hole _ => False

def isFree (k : Syntax.Kind) : Bool :=
  !(k matches .assign | .methodDef | .ctorDef | .variableDef | .annotationMemberValuePair)

mutual

/-- The plan has lines of `L` only, no method, and its assignments start on their own line. -/
def Timely (L : Nat → Prop) : Plan → Prop
  | .node kind _ line parts =>
    L line ∧ kind ≠ .methodDef ∧ kind ≠ .ctorDef ∧
      (kind = .assign → ∀ p ∈ parts.head?, p.Anchored line) ∧
      (kind.isInitial = true → ∀ p ∈ parts, p.Starts) ∧ TimelyAll L parts
  | .done T => T.Timely L
  | .hole c => c.Timely L

def TimelyAll (L : Nat → Prop) : List Plan → Prop
  | [] => True
  | p :: ps => Timely L p ∧ TimelyAll L ps

end

variable {L : Nat → Prop} {p : Plan} {ps : List Plan} {c d : Cst} {line : Nat}
  {kind : Syntax.Kind} {text : Option String}

theorem timelyAll_iff : TimelyAll L ps ↔ ∀ p ∈ ps, p.Timely L := by
  induction ps with
  | nil => simp [TimelyAll]
  | cons p ps ih => rw [TimelyAll, ih, List.forall_mem_cons]

theorem timely_node (hk : isFree kind = true) (hline : L line) (hps : ∀ p ∈ ps, p.Timely L) :
    (node kind text line ps).Timely L := by
  refine ⟨hline, ?_, ?_, ?_, ?_, timelyAll_iff.mpr hps⟩
  · rintro rfl
    cases hk
  · rintro rfl
    cases hk
  · rintro rfl
    cases hk
  · intro hinitial
    have hclash : ∀ k : Syntax.Kind, isFree k = true → k.isInitial = false := by
      intro k
      cases k <;> decide
    rw [hclash kind hk] at hinitial
    cases hinitial

/-- What gives something its first value is in step if its assignments show nothing. -/
theorem timely_initial (hk : kind.isInitial = true) (hline : L line)
    (hps : ∀ p ∈ ps, p.Timely L ∧ p.Starts) : (node kind text line ps).Timely L := by
  have htable : ∀ k : Syntax.Kind, k.isInitial = true →
      k ≠ .methodDef ∧ k ≠ .ctorDef ∧ k ≠ .assign := by
    intro k
    cases k <;> decide
  obtain ⟨hmethod, hctor, hassign⟩ := htable kind hk
  exact ⟨hline, hmethod, hctor, fun h => absurd h hassign, fun _ p hp => (hps p hp).2,
    timelyAll_iff.mpr fun p hp => (hps p hp).1⟩

theorem timely_assign (hline : L line) (hhead : ∀ p ∈ ps.head?, p.Anchored line)
    (hps : ∀ p ∈ ps, p.Timely L) : (node .assign text line ps).Timely L := by
  refine ⟨hline, ?_, ?_, fun _ => hhead, ?_, timelyAll_iff.mpr hps⟩
  · rintro ⟨⟩
  · rintro ⟨⟩
  · rintro ⟨⟩

theorem starts_of_kind? (hp : p.kind? = some kind) (hk : kind ≠ .assign) : p.Starts := by
  cases p with
  | node k text line parts =>
    cases hp
    exact fun h => absurd h hk
  | done T =>
    cases hp
    exact fun h => absurd h hk
  | hole c => cases hp

theorem timely_leaf (kind : Syntax.Kind) (hline : L line) : (leaf kind line).Timely L :=
  Term.timely_childless kind none hline

theorem timely_token (kind : Syntax.Kind) (name : String) (hline : L line) :
    (token kind name line).Timely L :=
  Term.timely_childless kind (some name) hline

theorem timely_qualified (name : String) (hline : L line) : (qualified name line).Timely L :=
  Term.timely_qualified name hline

theorem timely_holes {cs : List Cst} (h : ∀ d ∈ cs, d.Timely L) :
    ∀ p ∈ holes cs, p.Timely L := by
  rw [holes, List.forall_mem_map]
  exact h

theorem timely_role (hc : c.Timely L) (f : Field) :
    ∀ p ∈ holes (c.get? f).toList, p.Timely L :=
  timely_holes fun _ hd => hc.get? (Option.mem_toList.mp hd)

theorem timely_toList {o : Option Cst} {g : Cst → Plan} (h : ∀ d, o = some d → (g d).Timely L) :
    ∀ p ∈ (o.map g).toList, p.Timely L := by
  cases o with
  | none => exact List.forall_mem_nil _
  | some d => exact List.forall_mem_singleton.mpr (h d rfl)

theorem timely_nest (hk : isFree kind = true) (hc : c.Timely L) : (nest kind c).Timely L :=
  timely_node hk hc.line (timely_holes fun _ => hc.named)

theorem timely_expr (hc : c.Timely L) : (expr c).Timely L :=
  timely_node rfl hc.line (List.forall_mem_singleton.mpr hc)

theorem timely_nameOf {name : Option Cst} (hname : ∀ d, name = some d → d.Timely L)
    (hline : L line) : (nameOf name line).Timely L := by
  cases name with
  | none => exact timely_token _ _ hline
  | some name => exact timely_token _ _ (hname name rfl).line

theorem starts_nameOf (name : Option Cst) (line : Nat) : (nameOf name line).Starts := by
  obtain ⟨line', hname⟩ := nameOf_eq name line
  rw [hname]
  exact nofun

theorem timely_typeRef {type : Option Cst} (htype : ∀ d, type = some d → d.Timely L)
    (hline : L line) : (typeRef type line).Timely L := by
  cases type with
  | none => exact timely_leaf _ hline
  | some type =>
    have hline := (htype type rfl).line
    refine timely_node rfl hline (List.forall_mem_cons.mpr ⟨timely_qualified _ hline, ?_⟩)
    split
    · exact List.forall_mem_singleton.mpr (timely_leaf _ hline)
    · exact List.forall_mem_nil _

theorem timely_annotationArgument (hc : c.Timely L) : (annotationArgument c).Timely L := by
  rw [annotationArgument]
  split
  · refine timely_initial rfl hc.line (List.forall_mem_append.mpr ⟨?_, ?_⟩)
    · rw [List.forall_mem_cons, List.forall_mem_singleton]
      exact ⟨⟨timely_nameOf (fun _ => hc.get?) hc.line, starts_nameOf _ _⟩,
        timely_leaf _ hc.line, fun _ => rfl⟩
    · cases hvalue : c.get? .value with
      | none => exact List.forall_mem_nil _
      | some value =>
        exact List.forall_mem_singleton.mpr
          ⟨timely_expr (hc.get? hvalue), starts_of_kind? rfl (by decide)⟩
  · exact timely_expr hc

theorem timely_annotated (hc : c.Timely L) : (annotated c).Timely L := by
  refine timely_node rfl hc.line (List.forall_mem_append.mpr ⟨?_, ?_⟩)
  · exact timely_toList fun _ _ => timely_qualified _ hc.line
  · split
    · next arguments hget =>
      rw [List.forall_mem_map]
      intro e he
      exact timely_annotationArgument ((hc.get? hget).named (List.mem_filter.mp he).1)
    · exact List.forall_mem_nil _

theorem timely_modifierList (hc : c.Timely L) : (modifierList c).Timely L := by
  refine timely_node rfl hc.line fun p hp => ?_
  obtain ⟨d, hd, hp⟩ := List.mem_filterMap.mp hp
  rw [modifier] at hp
  split at hp
  · cases hp
    exact timely_annotated (hc.child hd)
  · split at hp
    · cases hp
    · cases hp
      exact timely_token _ _ (hc.child hd).line

theorem timely_modifiers (hc : c.Timely L) : (modifiers c).Timely L := by
  rw [modifiers]
  split
  · next list hlist => exact timely_modifierList (hc.named (List.mem_of_find?_eq_some hlist))
  · exact timely_leaf _ hc.line

theorem timely_naming (hk : isFree kind = true) (name : String) (hline : L line) :
    (node kind none line [qualified name line]).Timely L :=
  timely_node hk hline (List.forall_mem_singleton.mpr (timely_qualified _ hline))

theorem starts_initializer (c d : Cst) : (initializer c d).Starts := by
  intro _ p hp line
  cases hp
  split
  · next harray => exact .inr harray
  · exact nofun

/-- The sign of an initializer is in the declarator, and what follows it is no identifier. -/
theorem timely_initializer (hc : c.Timely L) (hd : d.Timely L) : (initializer c d).Timely L := by
  have hline : L ((((c.children.find? fun e => e.kind = .token && e.text == "=").map
      Cst.line).getD d.line)) := by
    cases hsign : c.children.find? fun e => e.kind = .token && e.text == "=" with
    | none => exact hd.line
    | some sign => exact (hc.child (List.mem_of_find?_eq_some hsign)).line
  have hpart : (if d.kind = .arrayInitializer then hole d else expr d).Timely L := by
    split
    · exact hd
    · exact timely_expr hd
  exact timely_assign hline (fun p hp => starts_initializer c d rfl p hp _)
    (List.forall_mem_singleton.mpr hpart)

theorem timely_initializer? (hc : c.Timely L) :
    ∀ p ∈ ((c.get? .value).map (initializer c)).toList, p.Timely L ∧ p.Starts := by
  cases hvalue : c.get? .value with
  | none => exact List.forall_mem_nil _
  | some value =>
    exact List.forall_mem_singleton.mpr
      ⟨timely_initializer hc (hc.get? hvalue), starts_initializer c value⟩

theorem timely_arrayMark (c : Cst) (hline : L line) :
    ∀ p ∈ arrayMark c line, p.Timely L ∧ p.Starts := by
  rw [arrayMark]
  split
  · exact List.forall_mem_singleton.mpr ⟨timely_leaf _ hline, starts_of_kind? rfl (by rintro ⟨⟩)⟩
  · exact List.forall_mem_nil _

theorem timely_definition (hk : kind = .variableDef ∨ kind = .parameterDef) (hc : c.Timely L)
    {type name : Option Cst} (htype : ∀ d, type = some d → d.Timely L)
    (hname : ∀ d, name = some d → d.Timely L) (hline : L line)
    (hps : ∀ p ∈ ps, p.Timely L ∧ p.Starts) :
    (node kind none line
      (modifiers c :: typeRef type line :: nameOf name line :: ps)).Timely L := by
  have hparts : ∀ p ∈ modifiers c :: typeRef type line :: nameOf name line :: ps,
      p.Timely L ∧ p.Starts := by
    simp only [List.forall_mem_cons]
    exact ⟨⟨timely_modifiers hc, starts_of_kind? (kind?_modifiers c) nofun⟩,
      ⟨timely_typeRef htype hline, starts_of_kind? (kind?_typeRef type line) nofun⟩,
      ⟨timely_nameOf hname hline, starts_nameOf name line⟩, hps⟩
  rcases hk with rfl | rfl
  · exact timely_initial rfl hline hparts
  · exact timely_node rfl hline fun p hp => (hparts p hp).1

theorem timely_variable (hc : c.Timely L) (hd : d.Timely L) : (variable_ c d).Timely L := by
  refine timely_definition (.inl rfl) hc (fun _ => hc.get?) (fun _ => hd.get?) hd.line
    (List.forall_mem_append.mpr ⟨timely_arrayMark d hd.line, ?_⟩)
  exact timely_initializer? hd

theorem timely_variableDefs (hc : c.Timely L) : ∀ p ∈ variableDefs c, p.Timely L := by
  rw [variableDefs, List.forall_mem_map]
  exact fun d hd => timely_variable hc (hc.child (List.mem_filter.mp hd).1)

theorem timely_component (hc : c.Timely L) : (component c).Timely L :=
  timely_definition (.inl rfl) hc (fun _ => hc.get?) (fun _ => hc.get?) hc.line
    (timely_arrayMark c hc.line)

theorem timely_parameterType (hc : c.Timely L) (h : parameterType c = some d) : d.Timely L := by
  rw [parameterType] at h
  split at h
  · exact hc.named (List.mem_of_find?_eq_some h)
  · exact hc.named (List.mem_of_find?_eq_some h)
  · exact hc.get? h

theorem timely_parameterName (hc : c.Timely L) (h : parameterName c = some d) : d.Timely L := by
  rw [parameterName] at h
  split at h
  · obtain ⟨declarator, hdeclarator, hname⟩ := Option.bind_eq_some_iff.mp h
    exact (hc.named (List.mem_of_find?_eq_some hdeclarator)).get? hname
  · exact hc.get? h

theorem timely_parameter (hc : c.Timely L) : (parameter c).Timely L :=
  timely_definition (.inr rfl) hc (fun _ => timely_parameterType hc)
    (fun _ => timely_parameterName hc) hc.line (List.forall_mem_nil _)

theorem timely_parameters {list : Option Cst} (hlist : ∀ d, list = some d → d.Timely L)
    (hline : L line) : (parameters list line).Timely L := by
  cases list with
  | none => exact timely_leaf _ hline
  | some list =>
    have hl := hlist list rfl
    refine timely_node rfl hl.line ?_
    rw [List.forall_mem_map]
    exact fun d hd => timely_parameter (hl.named (List.mem_filter.mp hd).1)

theorem timely_inferredParameter (hc : c.Timely L) : (inferredParameter c).Timely L := by
  refine timely_node rfl hc.line ?_
  simp only [List.forall_mem_cons]
  refine ⟨timely_leaf _ hc.line, timely_leaf _ hc.line, timely_nameOf ?_ hc.line,
    List.forall_mem_nil _⟩
  rintro d ⟨⟩
  exact hc

theorem timely_resource (hc : c.Timely L) : (resource c).Timely L := by
  rw [resource]
  split
  · exact timely_nest rfl hc
  · next name hname =>
    refine timely_definition (.inl rfl) hc (fun _ => hc.get?) ?_ hc.line (timely_initializer? hc)
    rintro d ⟨⟩
    exact hc.get? hname

theorem timely_clause (hk : isFree kind = true) (hc : c.Timely L) : (clause kind c).Timely L := by
  refine timely_node hk hc.line ?_
  rw [List.forall_mem_map]
  intro type htype
  obtain ⟨d, hd, htype⟩ := List.mem_flatMap.mp (List.mem_filter.mp htype).1
  refine timely_qualified _ ?_
  split at htype
  · exact ((hc.named hd).named htype).line
  · rw [List.mem_singleton.mp htype]
    exact (hc.named hd).line

theorem timely_clauses (hc : c.Timely L) : ∀ p ∈ c.named.filterMap clause?, p.Timely L := by
  intro p hp
  obtain ⟨d, hd, hp⟩ := List.mem_filterMap.mp hp
  rw [clause?] at hp
  split at hp
  · cases hp
    exact timely_clause rfl (hc.named hd)
  · cases hp
    exact timely_clause rfl (hc.named hd)
  · cases hp
    exact timely_clause rfl (hc.named hd)
  · cases hp

theorem timely_body (hc : c.Timely L) {components : Option Cst}
    (hcomponents : ∀ d, components = some d → d.Timely L) : (body c components).Timely L := by
  refine timely_node rfl hc.line (List.forall_mem_append.mpr ⟨?_, ?_⟩)
  · cases components with
    | none => exact List.forall_mem_nil _
    | some list =>
      simp only [List.forall_mem_map]
      exact fun d hd => timely_component ((hcomponents list rfl).named (List.mem_filter.mp hd).1)
  · rw [List.forall_mem_flatMap]
    intro d hd
    rw [member]
    split
    · exact timely_holes fun e he => (hc.named hd).named he
    · exact List.forall_mem_singleton.mpr (hc.named hd)

theorem timely_typeDeclaration (hk : isFree kind = true) (hc : c.Timely L) :
    (typeDeclaration kind c).Timely L := by
  refine timely_node hk hc.line ?_
  rw [List.forall_mem_append, List.forall_mem_append, List.forall_mem_cons,
    List.forall_mem_singleton, List.forall_mem_singleton]
  refine ⟨⟨⟨timely_modifiers hc, timely_nameOf (fun _ => hc.get?) hc.line⟩, timely_clauses hc⟩, ?_⟩
  split
  · next b hb =>
    refine timely_body (hc.get? hb) fun d hd => ?_
    split at hd
    · exact hc.get? hd
    · cases hd
  · exact timely_leaf _ hc.line

theorem timely_forEach (hc : c.Timely L) : (forEach c).Timely L := by
  refine timely_node rfl hc.line ?_
  rw [List.forall_mem_append, List.forall_mem_append, List.forall_mem_singleton]
  refine ⟨⟨?_, ?_⟩, timely_role hc .body⟩
  · exact timely_definition (.inl rfl) hc (fun _ => hc.get?) (fun _ => hc.get?) hc.line
      (List.forall_mem_nil _)
  · exact timely_toList fun _ hvalue => timely_expr (hc.get? hvalue)

theorem timely_lambdaParameters (hc : c.Timely L) : (lambdaParameters c).Timely L := by
  rw [lambdaParameters]
  split
  · exact timely_leaf _ hc.line
  · next list hlist =>
    have hl := hc.get? hlist
    split
    · exact timely_node rfl hc.line (List.forall_mem_singleton.mpr (timely_inferredParameter hl))
    · refine timely_node rfl hc.line ?_
      rw [List.forall_mem_map]
      exact fun d hd => timely_inferredParameter (hl.named (List.mem_filter.mp hd).1)
    · refine timely_parameters ?_ hc.line
      rintro d ⟨⟩
      exact hl

theorem timely_lambda (hc : c.Timely L) : (lambda c).Timely L := by
  refine timely_node rfl hc.line (List.forall_mem_cons.mpr ⟨timely_lambdaParameters hc, ?_⟩)
  split
  · exact List.forall_mem_nil _
  · next b hb =>
    rw [List.forall_mem_singleton]
    split
    · exact hc.get? hb
    · exact timely_expr (hc.get? hb)

theorem timely_assignment (hc : c.Timely L) (hk : c.kind = .assignmentExpression) :
    (assignment c).Timely L := by
  have hparts := List.forall_mem_append.mpr ⟨timely_role hc .left, timely_role hc .right⟩
  rw [assignment]
  split
  · refine timely_assign hc.line (fun p hp => ?_) hparts
    obtain ⟨left, hleft⟩ : ∃ d, c.get? .left = some d :=
      Cst.exists_get? hc.conforms (by rw [hk]; decide)
    rw [hleft] at hp
    cases hp
    exact .inl ⟨isPlace_of_left hc.conforms hk hleft, hc.line_left hk hleft⟩
  · exact timely_node rfl hc.line hparts

theorem timely_operator (hc : c.Timely L) : (operator c).Timely L :=
  timely_node rfl hc.line (timely_holes fun _ => hc.named)

theorem timely_chain (hc : c.Timely L) : (chain c).Timely L := by
  refine chain_induction (motive := fun c p => c.Timely L → p.Timely L) ?_ ?_ c hc
  · exact fun c _ hc => timely_operator hc
  · intro c left inner hleft _ ih hc
    refine timely_node rfl hc.line (List.forall_mem_cons.mpr ⟨ih (hc.get? hleft), ?_⟩)
    exact timely_holes fun d hd => hc.named (List.mem_filter.mp hd).1

theorem timely_fieldAccess (hc : c.Timely L) : (fieldAccess c).Timely L := by
  rw [fieldAccess]
  split
  · next object field hobject hfield =>
    exact timely_node rfl hc.line (List.forall_mem_cons.mpr
      ⟨hc.get? hobject, List.forall_mem_singleton.mpr (hc.get? hfield)⟩)
  · exact timely_nest rfl hc

theorem timely_arrayAccess (hc : c.Timely L) : (arrayAccess c).Timely L := by
  rw [arrayAccess]
  split
  · next array index harray hindex =>
    exact timely_node rfl hc.line (List.forall_mem_cons.mpr
      ⟨hc.get? harray, List.forall_mem_singleton.mpr (timely_expr (hc.get? hindex))⟩)
  · exact timely_nest rfl hc

theorem timely_methodCall (hc : c.Timely L) : (methodCall c).Timely L := by
  have hname : (nameOf (c.get? .name) c.line).Timely L := timely_nameOf (fun _ => hc.get?) hc.line
  refine timely_node rfl hc.line (List.forall_mem_cons.mpr ⟨?_, List.forall_mem_singleton.mpr ?_⟩)
  · split
    · next object hobject =>
      split
      · exact timely_node rfl hc.line (List.forall_mem_cons.mpr
          ⟨hc.get? hobject, List.forall_mem_singleton.mpr hname⟩)
      · exact hname
    · exact hname
  · split
    · next list hlist => exact hc.get? hlist
    · exact timely_leaf _ hc.line

theorem timely_creation (hc : c.Timely L) : (creation c).Timely L := by
  refine timely_node rfl hc.line (List.forall_mem_cons.mpr ⟨?_, ?_⟩)
  · exact timely_typeRef (fun _ => hc.get?) hc.line
  · exact timely_holes fun d hd => hc.named (List.mem_filter.mp hd).1

def callables : List Kind :=
  [ .methodDeclaration, .annotationTypeElementDeclaration, .constructorDeclaration,
    .compactConstructorDeclaration ]

theorem Form.timely {plans : List Plan} (h : Form c plans) (hk : c.kind ∉ callables)
    (hc : c.Timely L) : ∀ p ∈ plans, p.Timely L := by
  cases h with
  | comment _ => exact List.forall_mem_nil _
  | literal _ => exact List.forall_mem_singleton.mpr (timely_token _ _ hc.line)
  | package _ =>
    rw [Plan.package]
    split
    · exact List.forall_mem_nil _
    · exact List.forall_mem_singleton.mpr (timely_naming rfl _ hc.line)
  | import_ _ =>
    rw [Plan.import_]
    split
    · exact List.forall_mem_nil _
    · refine List.forall_mem_singleton.mpr (timely_naming ?_ _ hc.line)
      split <;> rfl
  | typeDeclaration kind hkind _ =>
    refine List.forall_mem_singleton.mpr (timely_typeDeclaration ?_ hc)
    have hfree : ∀ k ∈ [Syntax.Kind.classDef, .interfaceDef, .enumDef], isFree k = true := by decide
    exact hfree kind hkind
  | body _ =>
    refine List.forall_mem_singleton.mpr (timely_body hc ?_)
    rintro d ⟨⟩
  | variableDefs _ => exact timely_variableDefs hc
  | method hmethod =>
    have hall : ∀ k ∈ [Kind.methodDeclaration, .annotationTypeElementDeclaration],
        k ∈ callables := by decide
    exact absurd (hall _ hmethod) hk
  | constructor_ hconstructor =>
    have hall : ∀ k ∈ [Kind.constructorDeclaration, .compactConstructorDeclaration],
        k ∈ callables := by decide
    exact absurd (hall _ hconstructor) hk
  | parameter _ => exact List.forall_mem_singleton.mpr (timely_parameter hc)
  | resource _ => exact List.forall_mem_singleton.mpr (timely_resource hc)
  | forEach _ => exact List.forall_mem_singleton.mpr (timely_forEach hc)
  | lambda _ => exact List.forall_mem_singleton.mpr (timely_lambda hc)
  | modifierList _ => exact List.forall_mem_singleton.mpr (timely_modifierList hc)
  | annotated _ => exact List.forall_mem_singleton.mpr (timely_annotated hc)
  | group kind hkind =>
    refine List.forall_mem_singleton.mpr (timely_nest ?_ hc)
    simp only [List.mem_cons, Prod.mk.injEq, List.not_mem_nil, or_false] at hkind
    rcases hkind with ⟨-, rfl⟩ | ⟨-, rfl⟩ | ⟨-, rfl⟩ | ⟨-, rfl⟩ | ⟨-, rfl⟩ | ⟨-, rfl⟩ <;> rfl
  | parentheses _ => exact timely_holes fun _ => hc.named
  | assignment hassignment => exact List.forall_mem_singleton.mpr (timely_assignment hc hassignment)
  | chain _ => exact List.forall_mem_singleton.mpr (timely_chain hc)
  | operator _ => exact List.forall_mem_singleton.mpr (timely_operator hc)
  | fieldAccess _ => exact List.forall_mem_singleton.mpr (timely_fieldAccess hc)
  | methodCall _ => exact List.forall_mem_singleton.mpr (timely_methodCall hc)
  | arrayAccess _ => exact List.forall_mem_singleton.mpr (timely_arrayAccess hc)
  | creation _ => exact List.forall_mem_singleton.mpr (timely_creation hc)
  | self kind _ => exact List.forall_mem_singleton.mpr (timely_leaf kind hc.line)
  | word _ => exact List.forall_mem_singleton.mpr (timely_token _ _ hc.line)
  | dotted _ => exact List.forall_mem_singleton.mpr (timely_qualified _ hc.line)
  | type _ =>
    refine List.forall_mem_singleton.mpr (timely_typeRef ?_ hc.line)
    rintro d ⟨⟩
    exact hc
  | other _ => exact List.forall_mem_singleton.mpr (timely_nest rfl hc)

section Filling

variable {R : Cst → List Term → Prop}

/-- What an anchored part is filled with starts on its line, if it is an identifier. -/
theorem Anchored.filled
    (hfirst : ∀ c us line, (hole c).Anchored line → R c us →
      ∃ T, us = [T] ∧ (T.kind = .ident → T.line = line))
    {ts : List Term} (hp : p.Anchored line) (h : Filled R p ts) :
    ∃ T, ts = [T] ∧ (T.kind = .ident → T.line = line) := by
  cases p with
  | node kind text line' parts =>
    obtain ⟨us, -, rfl⟩ := h
    exact ⟨_, rfl, fun hk => absurd hk hp⟩
  | done T => exact ⟨T, h, fun hk => absurd hk hp⟩
  | hole c => exact hfirst c ts line hp h

theorem Starts.filled
    (hfirst : ∀ c us line, (hole c).Anchored line → R c us →
      ∃ T, us = [T] ∧ (T.kind = .ident → T.line = line))
    {ts : List Term} (hp : p.Starts) (h : Filled R p ts) :
    ∀ T ∈ ts, T.kind = .assign → ∀ U ∈ T.children.head?, U.kind ≠ .ident := by
  cases p with
  | node kind text line parts =>
    obtain ⟨us, hus, rfl⟩ := h
    rw [List.forall_mem_singleton]
    intro hk U hU hident
    cases parts with
    | nil =>
      rw [show us = [] from hus] at hU
      cases hU
    | cons q qs =>
      obtain ⟨vs, ws, hq, -, rfl⟩ := hus
      obtain ⟨T, rfl, hT⟩ := (hp hk q rfl (U.line + 1)).filled hfirst hq
      cases hU
      exact absurd (hT hident) (Nat.ne_of_lt (Nat.lt_succ_self _))
  | done T =>
    rw [show ts = [T] from h, List.forall_mem_singleton]
    intro hk U hU
    rw [hp hk] at hU
    cases hU
  | hole c => exact hp.elim

mutual

theorem Timely.filled (hR : ∀ c us, c.Timely L → R c us → ∀ T ∈ us, T.Timely L)
    (hfirst : ∀ c us line, (hole c).Anchored line → R c us →
      ∃ T, us = [T] ∧ (T.kind = .ident → T.line = line)) :
    ∀ {p : Plan} {ts : List Term}, p.Timely L → Filled R p ts → ∀ T ∈ ts, T.Timely L
  | .node kind text line parts, ts, hp, h => by
    obtain ⟨us, hus, rfl⟩ := h
    obtain ⟨hline, hmethod, hctor, hassign, hinitial, hparts⟩ := hp
    rw [List.forall_mem_singleton]
    refine Term.timely_node hline ⟨?_, ?_, ?_⟩ (TimelyAll.filled hR hfirst hparts hus)
    · intro hk U hU
      cases parts with
      | nil =>
        rw [show us = [] from hus] at hU
        cases hU
      | cons p ps =>
        obtain ⟨vs, ws, hp, -, rfl⟩ := hus
        obtain ⟨T, rfl, hT⟩ := (hassign hk p rfl).filled hfirst hp
        cases hU
        exact hT
    · intro hk T hT
      obtain ⟨q, hq, vs, hvs, hT⟩ := hus.exists_of_mem hT
      exact (hinitial hk q hq).filled hfirst hvs T hT
    · rintro (hk | hk)
      · exact absurd hk hmethod
      · exact absurd hk hctor
  | .done T, ts, hp, h => by
    rw [show ts = [T] from h, List.forall_mem_singleton]
    exact hp
  | .hole c, ts, hp, h => hR c ts hp h

theorem TimelyAll.filled (hR : ∀ c us, c.Timely L → R c us → ∀ T ∈ us, T.Timely L)
    (hfirst : ∀ c us line, (hole c).Anchored line → R c us →
      ∃ T, us = [T] ∧ (T.kind = .ident → T.line = line)) :
    ∀ {ps : List Plan} {ts : List Term}, TimelyAll L ps → FilledAll R ps ts →
      ∀ T ∈ ts, T.Timely L
  | [], ts, _, h => by
    rw [show ts = [] from h]
    exact List.forall_mem_nil _
  | p :: ps, ts, hps, h => by
    obtain ⟨us, vs, hus, hvs, rfl⟩ := h
    rw [List.forall_mem_append]
    exact ⟨Timely.filled hR hfirst hps.1 hus, TimelyAll.filled hR hfirst hps.2 hvs⟩

end

end Filling

end Plan

theorem Cst.anchored_of_lower {depth : Nat} {c : Cst} {ts : List Term} {line : Nat}
    (hc : (Plan.hole c).Anchored line) (h : c.lower depth = .ok ts) :
    ∃ T, ts = [T] ∧ (T.kind = .ident → T.line = line) := by
  cases depth with
  | zero => cases h
  | succ depth =>
    rw [lower] at h
    have hsingle {p : Plan} {kind : Syntax.Kind} (hp : Plan.ofCst c = [p])
        (hkind : p.kind? = some kind) (hne : kind ≠ .ident) :
        ∃ T, ts = [T] ∧ (T.kind = .ident → T.line = line) := by
      rw [hp] at h
      have hfilled := Plan.filledAll_singleton.mp (Plan.filledAll_of_fillAll h)
      obtain ⟨T, hT, hk⟩ := hfilled.of_kind? hkind
      exact ⟨T, hT, fun hident => absurd (hk.symm.trans hident) hne⟩
    rcases hc with ⟨hplace, rfl⟩ | harray
    · cases hk : c.kind with
      | identifier =>
        have hplan : Plan.ofCst c = [Plan.ident c.text c.line] := by
          rw [Plan.ofCst, hk]
          rfl
        rw [hplan] at h
        cases h
        exact ⟨_, rfl, fun _ => rfl⟩
      | fieldAccess =>
        have hplan : Plan.ofCst c = [Plan.fieldAccess c] := by
          rw [Plan.ofCst, hk]
          rfl
        rw [Plan.fieldAccess] at hplan
        split at hplan
        · exact hsingle hplan rfl (by decide)
        · exact hsingle hplan rfl (by decide)
      | arrayAccess =>
        have hplan : Plan.ofCst c = [Plan.arrayAccess c] := by
          rw [Plan.ofCst, hk]
          rfl
        rw [Plan.arrayAccess] at hplan
        split at hplan
        · exact hsingle hplan rfl (by decide)
        · exact hsingle hplan rfl (by decide)
      | _ => simp [isPlace, hk] at hplace
    · have hplan : Plan.ofCst c = [Plan.nest .arrayInit c] := by
        rw [Plan.ofCst, harray]
        rfl
      exact hsingle hplan rfl (by decide)

section Lowering

variable {L : Nat → Prop} {depth : Nat} {c : Cst} {ts : List Term}

/-- Lowering keeps to the lines of what is lowered, at this depth. -/
def KeepsLines (depth : Nat) : Prop :=
  ∀ (L : Nat → Prop) (c : Cst) (ts : List Term), c.Timely L → c.lower depth = .ok ts →
    ∀ T ∈ ts, T.Timely L

theorem KeepsLines.filled (ih : KeepsLines depth) {p : Plan} (hp : p.Timely L)
    (h : Plan.Filled (fun d us => d.lower depth = .ok us) p ts) : ∀ T ∈ ts, T.Timely L :=
  hp.filled (fun d us hd hus => ih L d us hd hus)
    (fun _ _ _ hd hus => Cst.anchored_of_lower hd hus) h

/-- The parts of a method or constructor in front of its parameters. -/
structure Fronts (L : Nat → Prop) (p : Plan) : Prop where
  timely : p.Timely L
  kind : ∃ k, p.kind? = some k ∧ k ≠ .parameters ∧ k ≠ .slist

/-- What takes parameters lists them in front of its body. -/
theorem KeepsLines.callable (ih : KeepsLines depth) (hc : c.Timely L)
    (ho : (Grammar.content c.kind).ordered [.parameters, .body] = true) (kind : Syntax.Kind)
    (hkind : kind ≠ .assign) (hfree : kind.isInitial = false) (front : List Plan)
    (hfront : ∀ p ∈ front, Fronts L p)
    (h : Plan.Filled (fun d us => d.lower depth = .ok us)
      (.node kind none c.line (front ++ [Plan.parameters (c.get? .parameters) c.line] ++
        Plan.holes (c.get? .body).toList)) ts) : ∀ T ∈ ts, T.Timely L := by
  obtain ⟨us, hus, rfl⟩ := h
  rw [List.forall_mem_singleton]
  have hlist : (Plan.parameters (c.get? .parameters) c.line).kind? = some .parameters := by
    cases c.get? .parameters with
    | none => rfl
    | some list => rfl
  -- Every child comes from the front, from the list of parameters or from the body.
  have hsource : ∀ T ∈ us, (∃ k, T.kind = k ∧ k ≠ .parameters ∧ k ≠ .slist ∧ T.Timely L) ∨
      T.kind = .parameters ∧ Plan.Filled (fun d us => d.lower depth = .ok us)
        (Plan.parameters (c.get? .parameters) c.line) [T] ∨
      ∃ body vs, c.get? .body = some body ∧ body.lower depth = .ok vs ∧ T ∈ vs := by
    intro T hT
    obtain ⟨p, hp, vs, hvs, hT⟩ := hus.exists_of_mem hT
    rw [List.mem_append, List.mem_append, List.mem_singleton] at hp
    rcases hp with (hp | rfl) | hp
    · obtain ⟨k, hk, hne⟩ := (hfront p hp).kind
      obtain ⟨T', rfl, hT'⟩ := hvs.of_kind? hk
      cases List.mem_singleton.mp hT
      exact .inl ⟨k, hT', hne.1, hne.2, ih.filled (hfront p hp).timely hvs T hT⟩
    · obtain ⟨T', rfl, hT'⟩ := hvs.of_kind? hlist
      cases List.mem_singleton.mp hT
      exact .inr (.inl ⟨hT', hvs⟩)
    · obtain ⟨body, hbody, rfl⟩ := List.mem_map.mp hp
      exact .inr (.inr ⟨body, vs, Option.mem_toList.mp hbody, hvs, hT⟩)
  refine Term.timely_node hc.line ⟨fun hk => absurd hk hkind, ?_, ?_⟩ ?_
  · intro hinitial
    rw [show (Term.node kind none c.line us).kind = kind from rfl, hfree] at hinitial
    cases hinitial
  · intro _ P hP hPkind B hB hBkind U hU V hV
    rcases hsource P hP with ⟨k, hk, hne, -⟩ | ⟨-, hparameters⟩ | ⟨body, vs, hbody, hvs, hmem⟩
    · exact absurd (hk.symm.trans hPkind) hne
    · rcases hsource B hB with ⟨k, hk, -, hne, -⟩ | ⟨hlist, -⟩ | ⟨body, vs, hbody, hvs, hmem⟩
      · exact absurd (hk.symm.trans hBkind) hne
      · rw [hlist] at hBkind
        cases hBkind
      · have hV := (ih _ body vs (hc.get? hbody).self hvs B hmem V hV).1
        have htimely : (Plan.parameters (c.get? .parameters) c.line).Timely
            fun m => ∀ n ∈ body.lines, m ≤ n := by
          refine Plan.timely_parameters (fun list hlist => ?_) fun n hn => ?_
          · exact { hc.get? hlist with within := fun m hm n hn => hc.lines_le ho hlist hbody hm hn }
          · have hsublist := Cst.lines_sublist_of_mem_children (Cst.mem_of_get? hbody).1
            exact hc.line_le (hsublist.subset hn)
        exact (ih.filled htimely hparameters P (List.mem_singleton_self P) U hU).1 _ hV
    · have hplaced := Cst.placed_of_lower (hc.get? hbody).conforms hvs P hmem
      rw [Plan.Placed, hPkind] at hplaced
      simp [Kind.mayBecome] at hplaced
  · intro T hT
    rcases hsource T hT with ⟨-, -, -, -, htimely⟩ | ⟨-, hparameters⟩ | ⟨body, vs, hbody, hvs, hmem⟩
    · exact htimely
    · exact ih.filled (Plan.timely_parameters (fun _ => hc.get?) hc.line) hparameters T
        (List.mem_singleton_self T)
    · exact ih L body vs (hc.get? hbody) hvs T hmem

theorem fronts_modifiers (hc : c.Timely L) : Fronts L (Plan.modifiers c) :=
  ⟨Plan.timely_modifiers hc, .modifiers, Plan.kind?_modifiers c, nofun, nofun⟩

theorem fronts_typeRef (hc : c.Timely L) : Fronts L (Plan.typeRef (c.get? .type) c.line) :=
  ⟨Plan.timely_typeRef (fun _ => hc.get?) hc.line, .type, Plan.kind?_typeRef _ _, nofun, nofun⟩

theorem fronts_nameOf (hc : c.Timely L) : Fronts L (Plan.nameOf (c.get? .name) c.line) := by
  refine ⟨Plan.timely_nameOf (fun _ => hc.get?) hc.line, .ident, ?_, nofun, nofun⟩
  obtain ⟨line, hname⟩ := Plan.nameOf_eq (c.get? .name) c.line
  rw [hname]
  rfl

theorem KeepsLines.method (ih : KeepsLines depth) (hc : c.Timely L)
    (hk : c.kind ∈ [.methodDeclaration, .annotationTypeElementDeclaration])
    (h : Plan.Filled (fun d us => d.lower depth = .ok us) (Plan.method c) ts) :
    ∀ T ∈ ts, T.Timely L := by
  have ho : ∀ k ∈ [Kind.methodDeclaration, .annotationTypeElementDeclaration],
      (Grammar.content k).ordered [.parameters, .body] = true := by decide
  refine ih.callable hc (ho _ hk) .methodDef nofun rfl [Plan.modifiers c,
    Plan.typeRef (c.get? .type) c.line, Plan.nameOf (c.get? .name) c.line] ?_ h
  simp only [List.forall_mem_cons]
  exact ⟨fronts_modifiers hc, fronts_typeRef hc, fronts_nameOf hc, List.forall_mem_nil _⟩

theorem KeepsLines.constructor_ (ih : KeepsLines depth) (hc : c.Timely L)
    (hk : c.kind ∈ [.constructorDeclaration, .compactConstructorDeclaration])
    (h : Plan.Filled (fun d us => d.lower depth = .ok us) (Plan.constructor_ c) ts) :
    ∀ T ∈ ts, T.Timely L := by
  have ho : ∀ k ∈ [Kind.constructorDeclaration, .compactConstructorDeclaration],
      (Grammar.content k).ordered [.parameters, .body] = true := by decide
  refine ih.callable hc (ho _ hk) .ctorDef nofun rfl
    [Plan.modifiers c, Plan.nameOf (c.get? .name) c.line] ?_ h
  simp only [List.forall_mem_cons]
  exact ⟨fronts_modifiers hc, fronts_nameOf hc, List.forall_mem_nil _⟩

end Lowering

end Java

end ArchLint
