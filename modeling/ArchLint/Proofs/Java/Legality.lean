import ArchLint.Proofs.Java.Conformance
import ArchLint.Proofs.Java.Filling
import ArchLint.Proofs.Syntax.Soundness

/-!
# Legal plans

A plan is legal if its nodes have the parts that their kind asks for, whatever the holes are
filled with. Every plan of a conforming node is legal.
-/

namespace ArchLint.Java

open Syntax (Term)

namespace Cst

def isValue (c : Cst) : Bool :=
  (.super :: Grammar.expressions).contains c.kind

/-- The node is something that can be assigned to. -/
def isPlace (c : Cst) : Bool :=
  c.kind matches .identifier | .fieldAccess | .arrayAccess

mutual

def height : Cst → Nat
  | .node _ _ _ _ children => heights children + 1

def heights : List Cst → Nat
  | [] => 0
  | c :: cs => max (height c) (heights cs)

end

theorem height_le_heights {d : Cst} {cs : List Cst} (h : d ∈ cs) : d.height ≤ heights cs := by
  induction h with
  | head => exact Nat.le_max_left _ _
  | tail _ _ ih => exact Nat.le_trans ih (Nat.le_max_right _ _)

/-- The tree conforms to the grammar and has at most `n` levels. -/
structure Within (n : Nat) (c : Cst) : Prop where
  conforms : c.conforms = true
  height_le : c.height ≤ n

namespace Within

variable {n : Nat} {c d : Cst}

theorem succ (h : c.Within n) : c.Within (n + 1) :=
  ⟨h.conforms, Nat.le_succ_of_le h.height_le⟩

theorem child (h : c.Within (n + 1)) (hd : d ∈ c.children) : d.Within n := by
  refine ⟨conforms_child h.conforms hd, ?_⟩
  obtain ⟨kind, field, line, text, children⟩ := c
  have hheight := h.height_le
  rw [height] at hheight
  exact Nat.le_trans (height_le_heights hd) (Nat.le_of_succ_le_succ hheight)

theorem get? (h : c.Within (n + 1)) {f : Field} (hd : c.get? f = some d) : d.Within n :=
  h.child (mem_of_get? hd).1

theorem named (h : c.Within (n + 1)) : ∀ d ∈ c.named, d.Within n :=
  fun _ hd => h.child (List.mem_filter.mp hd).1

end Within

theorem segmentNames_eq (cs : List Cst) :
    segmentNames cs =
      (cs.filter fun c => c.isNamed && !c.isAnnotating && !c.isComment).map typeName := by
  induction cs with
  | nil => simp [segmentNames]
  | cons c cs ih =>
    rw [segmentNames, List.filter_cons]
    split
    · simp [ih]
    · exact ih

theorem segmentNames_children (c : Cst) : segmentNames c.children = segmentNames c.parts := by
  rw [segmentNames_eq, segmentNames_eq, parts, List.filter_filter]
  refine congrArg _ (List.filter_congr fun d _ => ?_)
  cases d.isComment <;> simp

open Content in
theorem segmentNames_scopedIdentifier {c : Cst} (hc : c.conforms = true)
    (hk : c.kind = .scopedIdentifier) :
    ∃ first last, segmentNames c.children = [first, last] := by
  have hfits := fits_parts hc
  rw [hk] at hfits
  replace hfits : Fits (.seq (role .scope Grammar.names) (.seq (token ".") Grammar.name))
    c.parts := hfits
  simp only [role, token, Grammar.name, fits_seq, fits_child, Slot.admits_iff] at hfits
  obtain ⟨_, _, hparts, ⟨scope, rfl, -, hscope, -⟩, _, _, rfl, ⟨dot, rfl, -, hdot, -⟩, name, rfl,
    -, hname, -⟩ := hfits
  refine ⟨scope.typeName, name.typeName, ?_⟩
  rw [segmentNames_children, hparts, segmentNames_eq]
  simp only [Grammar.names, List.mem_cons, List.not_mem_nil, or_false] at hscope hdot hname
  rcases hscope with hscope | hscope <;>
    simp [isNamed, isAnnotating, isComment, hscope, hdot, hname, Kind.isAnnotating,
      Kind.isComment]

theorem ne_star_of_mem {name : String} (h : '.' ∈ name.toList) : name ≠ "*" := by
  rintro rfl
  simp at h

theorem typeName_identifier {c : Cst} (hk : c.kind = .identifier) : c.typeName = c.text := by
  obtain ⟨_, _, _, _, _⟩ := c
  cases hk
  simp [typeName, text]

theorem typeName_scopedIdentifier {c : Cst} (hk : c.kind = .scopedIdentifier) :
    c.typeName = ".".intercalate (segmentNames c.children) := by
  obtain ⟨_, _, _, _, _⟩ := c
  cases hk
  simp [typeName, children]

theorem typeName_ne_star {c : Cst} (hc : c.conforms = true) (hk : Plan.isName c = true) :
    c.typeName ≠ "*" := by
  cases hkind : c.kind with
  | identifier =>
    have hword : Grammar.isWord c.text = true := by
      have h := hasLegalText hc
      rwa [Grammar.hasLegalText, hkind] at h
    rw [typeName_identifier hkind]
    intro hstar
    rw [hstar] at hword
    exact absurd hword (by decide +kernel)
  | scopedIdentifier =>
    obtain ⟨first, last, h⟩ := segmentNames_scopedIdentifier hc hkind
    rw [typeName_scopedIdentifier hkind, h]
    exact ne_star_of_mem (by simp)
  | _ => simp [Plan.isName, hkind] at hk

end Cst

namespace Plan

/-- The kind of the one term that a plan makes, unless that is left to what fills it. -/
def kind? : Plan → Option Syntax.Kind
  | .node kind _ _ _ => some kind
  | .done T => some T.kind
  | .hole _ => none

def IsSingle : Plan → Prop
  | .hole c => c.isValue = true
  | _ => True

/-- A first value: a list, or an expression that is wrapped. -/
inductive GivesValue : Plan → Prop where
  | expression (line : Nat) (c : Cst) : GivesValue (node .assign none line [expr c])
  | list (line : Nat) (c : Cst) (h : c.kind = .arrayInitializer) :
      GivesValue (node .assign none line [hole c])

/-- What may follow the name in a definition of a variable. -/
inductive Trails : List Plan → Prop where
  | nothing : Trails []
  | mark (line : Nat) : Trails [leaf .arrayDeclarator line]
  | value {p : Plan} (h : p.GivesValue) : Trails [p]
  | both (line : Nat) {p : Plan} (h : p.GivesValue) : Trails [leaf .arrayDeclarator line, p]

/-- The parts of a definition begin with modifiers, a type and a name. -/
def DefinitionHead (parts rest : List Plan) : Prop :=
  ∃ m type name line, parts = m :: type :: ident name line :: rest ∧
    m.kind? = some .modifiers ∧ type.kind? = some .type

/-- The parts are those that a node of this kind must have. -/
def Suits (parts : List Plan) : Syntax.Kind → Prop
  | .variableDef => ∃ rest, DefinitionHead parts rest ∧ Trails rest
  | .parameterDef => ∃ rest, DefinitionHead parts rest
  | .annotationMemberValuePair => ∃ name line line' values,
      parts = ident name line :: leaf .assign line' :: values ∧
        ∀ p ∈ values, p.kind? = some .expr
  | .classDef | .interfaceDef | .enumDef => ∃ name line, ident name line ∈ parts
  | .packageDef | .importDef | .staticImport => ∃ name line,
      name ≠ "*" ∧ qualified name line ∈ parts
  | .dot => ∃ p q, parts = [p, q] ∧ p.IsSingle ∧ q.IsSingle
  -- identifiers have no parts and are never left to a plan
  | .ident => False
  | _ => True

def Reassigns : Plan → Prop
  | .node .assign _ _ parts => ∃ left right,
      parts = [.hole left, .hole right] ∧ left.isPlace = true ∧ right.isValue = true
  | .done T => T.kind ≠ .assign
  | _ => True

mutual

/-- Every node has the parts that its kind asks for, outside definitions and annotations every
assignment shows its target, and what is still to be lowered is at most `n` levels high. -/
def Legal (n : Nat) : Plan → Prop
  | .node kind _ _ parts =>
    Suits parts kind ∧ (kind.isInitial = false → ∀ p ∈ parts, p.Reassigns) ∧ LegalAll n parts
  | .done T => T.Sound
  | .hole c => c.Within n

def LegalAll (n : Nat) : List Plan → Prop
  | [] => True
  | p :: ps => p.Legal n ∧ LegalAll n ps

end

theorem legalAll_iff {n : Nat} {ps : List Plan} :
    LegalAll n ps ↔ ∀ p ∈ ps, p.Legal n := by
  induction ps with
  | nil => simp [LegalAll]
  | cons p ps ih => simp [LegalAll, ih]

/-- A plan that is legal wherever it stands. -/
structure Apt (n : Nat) (p : Plan) : Prop where
  legal : p.Legal n
  reassigns : p.Reassigns

variable {n : Nat} {parts : List Plan} {kind : Syntax.Kind} {text : Option String} {line : Nat}

theorem apt_node (hkind : kind ≠ .assign) (hsuits : Suits parts kind)
    (hparts : ∀ p ∈ parts, p.Apt n) : (node kind text line parts).Apt n := by
  constructor
  · exact ⟨hsuits, fun _ p hp => (hparts p hp).reassigns,
      legalAll_iff.mpr fun p hp => (hparts p hp).legal⟩
  · cases kind with
    | assign => exact absurd rfl hkind
    | _ => trivial

/-- Where something gets its first value, assignments need not show a target. -/
theorem apt_initial (hkind : kind.isInitial = true) (hsuits : Suits parts kind)
    (hparts : ∀ p ∈ parts, p.Legal n) : (node kind text line parts).Apt n := by
  constructor
  · refine ⟨hsuits, fun hplain => ?_, legalAll_iff.mpr hparts⟩
    rw [hkind] at hplain
    cases hplain
  · cases kind with
    | assign => cases hkind
    | _ => trivial

theorem apt_leaf (hfault : (Term.leaf kind line).fault = none) (hkind : kind ≠ .assign) :
    (leaf kind line).Apt n :=
  ⟨Term.sound_childless hfault, hkind⟩

theorem apt_token {name : String} (hfault : (Term.token kind name line).fault = none)
    (hkind : kind ≠ .assign) : (token kind name line).Apt n :=
  ⟨Term.sound_childless hfault, hkind⟩

theorem apt_ident (name : String) (line : Nat) : (ident name line).Apt n :=
  apt_token rfl nofun

theorem apt_qualified (name : String) (line : Nat) : (qualified name line).Apt n :=
  ⟨(Term.sound_qualified name line).1, (Term.sound_qualified name line).2⟩

theorem apt_hole {c : Cst} (hc : c.Within n) : (hole c).Apt n :=
  ⟨hc, trivial⟩

theorem apt_holes {cs : List Cst} (hcs : ∀ c ∈ cs, c.Within n) :
    ∀ p ∈ holes cs, p.Apt n := by
  intro p hp
  obtain ⟨c, hc, rfl⟩ := List.mem_map.mp hp
  exact apt_hole (hcs c hc)

/-- The text of a name that may be missing. -/
def textOf (name : Option Cst) : String :=
  (name.map Cst.text).getD ""

theorem nameOf_eq (name : Option Cst) (line : Nat) :
    ∃ line', nameOf name line = ident (textOf name) line' := by
  cases name with
  | some name => exact ⟨name.line, rfl⟩
  | none => exact ⟨line, rfl⟩

theorem apt_nameOf (name : Option Cst) (line : Nat) : (nameOf name line).Apt n := by
  obtain ⟨line', h⟩ := nameOf_eq name line
  rw [h]
  exact apt_ident _ line'

variable {c d : Cst}

theorem apt_expr (hc : c.Within n) : (expr c).Apt n :=
  apt_node nofun trivial (by simpa using apt_hole hc)

theorem apt_typeRef (type : Option Cst) (line : Nat) : (typeRef type line).Apt n := by
  cases type with
  | none => exact apt_leaf rfl nofun
  | some type =>
    refine apt_node nofun trivial (List.forall_mem_cons.mpr ⟨apt_qualified _ _, ?_⟩)
    split
    · exact List.forall_mem_singleton.mpr (apt_leaf rfl nofun)
    · exact List.forall_mem_nil _

theorem kind?_typeRef (type : Option Cst) (line : Nat) :
    (typeRef type line).kind? = some .type := by
  cases type <;> rfl

theorem forall_mem_toList_map {α β : Type} {o : Option α} {f : α → β} {P : β → Prop} :
    (∀ b ∈ (o.map f).toList, P b) ↔ ∀ a, o = some a → P (f a) := by
  cases o <;> simp

theorem suits_pair {name : Option Cst} {line' : Nat} (hparts : ∀ p ∈ parts, p.kind? = some .expr) :
    Suits ([nameOf name line, leaf .assign line'] ++ parts) .annotationMemberValuePair := by
  obtain ⟨line', hname⟩ := nameOf_eq name line
  rw [hname]
  exact ⟨_, _, _, _, rfl, hparts⟩

theorem apt_annotationArgument (hc : c.Within n) : (annotationArgument c).Apt n := by
  rw [annotationArgument]
  split
  · have hvalues : ∀ p ∈ ((c.get? .value).map expr).toList, p.kind? = some .expr :=
      forall_mem_toList_map.mpr fun _ _ => rfl
    refine apt_initial rfl (suits_pair hvalues) ?_
    simp only [List.cons_append, List.nil_append, List.forall_mem_cons, Option.mem_toList,
      Option.map_eq_some_iff]
    refine ⟨(apt_nameOf _ _).legal, Term.sound_childless rfl, ?_⟩
    rintro p ⟨value, hvalue, rfl⟩
    exact (apt_expr (hc.succ.get? hvalue)).legal
  · exact apt_expr hc

theorem apt_annotated (hc : c.Within (n + 1)) : (annotated c).Apt n := by
  refine apt_node nofun trivial (List.forall_mem_append.mpr ⟨?_, ?_⟩)
  · simp only [Option.mem_toList, Option.map_eq_some_iff]
    rintro p ⟨name, -, rfl⟩
    exact apt_qualified _ _
  · split
    · next arguments hget =>
      simp only [List.forall_mem_map, List.mem_filter, and_imp]
      intro e he _
      have hmem := (List.mem_filter.mp he).1
      exact apt_annotationArgument ((hc.get? hget).succ.child hmem)
    · exact List.forall_mem_nil _

theorem apt_modifierList (hc : c.Within (n + 1)) : (modifierList c).Apt n := by
  refine apt_node nofun trivial fun p hp => ?_
  obtain ⟨d, hd, hp⟩ := List.mem_filterMap.mp hp
  rw [modifier] at hp
  split at hp
  · cases hp
    exact apt_annotated (hc.child hd).succ
  · split at hp
    · cases hp
    · cases hp
      exact apt_token rfl nofun

theorem apt_modifiers (hc : c.Within (n + 1)) : (modifiers c).Apt n := by
  rw [modifiers]
  split
  · next list hlist =>
    have hmem := (List.mem_filter.mp (List.mem_of_find?_eq_some hlist)).1
    exact apt_modifierList (hc.child hmem).succ
  · exact apt_leaf rfl nofun

theorem kind?_modifiers (c : Cst) : (modifiers c).kind? = some .modifiers := by
  rw [modifiers]
  split <;> rfl

theorem apt_naming {name : String} (hkind : kind.holdsName = true) (hname : name ≠ "*") :
    (node kind text line [qualified name line]).Apt n := by
  have hparts : ∀ p ∈ [qualified name line], p.Apt n :=
    List.forall_mem_singleton.mpr (apt_qualified name line)
  have hsuits : ∃ n l, n ≠ "*" ∧ qualified n l ∈ [qualified name line] :=
    ⟨name, line, hname, List.mem_singleton_self _⟩
  cases kind with
  | packageDef | importDef | staticImport => exact apt_node nofun hsuits hparts
  | _ => cases hkind

theorem apt_package (hc : c.conforms = true) : ∀ p ∈ package c, p.Apt n := by
  rw [package]
  split
  · exact List.forall_mem_nil _
  · next name hname =>
    have hmem := (List.mem_filter.mp (List.mem_of_find?_eq_some hname)).1
    have hstar := Cst.typeName_ne_star (Cst.conforms_child hc hmem) (List.find?_some hname)
    exact List.forall_mem_singleton.mpr (apt_naming rfl hstar)

theorem apt_import (hc : c.conforms = true) : ∀ p ∈ import_ c, p.Apt n := by
  rw [import_]
  split
  · exact List.forall_mem_nil _
  · next name hname =>
    obtain ⟨hmem, hisName⟩ := List.mem_filter.mp (List.mem_of_getLast? hname)
    refine List.forall_mem_singleton.mpr (apt_naming ?_ ?_)
    · split <;> rfl
    · split
      · exact Cst.ne_star_of_mem (by simp)
      · simpa using Cst.typeName_ne_star (Cst.conforms_child hc hmem) hisName

theorem definitionHead {m type : Plan} (hm : m.kind? = some .modifiers)
    (htype : type.kind? = some .type) (name : Option Cst) (line : Nat) (parts : List Plan) :
    DefinitionHead (m :: type :: nameOf name line :: parts) parts := by
  obtain ⟨line', hname⟩ := nameOf_eq name line
  rw [hname]
  exact ⟨m, type, _, line', rfl, hm, htype⟩

theorem givesValue_initializer (c d : Cst) : (initializer c d).GivesValue := by
  rw [initializer]
  split
  · next hk => exact .list _ d hk
  · exact .expression _ d

theorem trails_initializer (o : Option Cst) (c : Cst) :
    Trails ((o.map (initializer c)).toList) := by
  cases o with
  | none => exact .nothing
  | some d => exact .value (givesValue_initializer c d)

theorem trails_arrayMark (c : Cst) (line : Nat) : Trails (arrayMark c line) := by
  rw [arrayMark]
  split
  · exact .mark line
  · exact .nothing

theorem trails_arrayMark_append (c : Cst) (line : Nat) (o : Option Cst) :
    Trails (arrayMark c line ++ (o.map (initializer c)).toList) := by
  cases o with
  | none =>
    rw [Option.map_none, Option.toList_none, List.append_nil]
    exact trails_arrayMark c line
  | some d =>
    rw [arrayMark]
    split
    · exact .both line (givesValue_initializer c d)
    · exact .value (givesValue_initializer c d)

theorem legal_initializer (hd : d.Within n) : (initializer c d).Legal n := by
  refine ⟨trivial, fun _ => ?_, ?_⟩
  · rw [List.forall_mem_singleton]
    split <;> trivial
  · rw [legalAll_iff, List.forall_mem_singleton]
    split
    · exact hd
    · exact (apt_expr hd).legal

theorem apt_arrayMark (c : Cst) (line : Nat) : ∀ p ∈ arrayMark c line, p.Apt n := by
  rw [arrayMark]
  split
  · exact List.forall_mem_singleton.mpr (apt_leaf rfl nofun)
  · exact List.forall_mem_nil _

/-- A variable is legal if what follows its name is, and may follow a name. -/
theorem apt_variableDef (hc : c.Within (n + 1)) {type name : Option Cst} {line' : Nat}
    (htrails : Trails parts) (hparts : ∀ p ∈ parts, p.Legal n) :
    (node .variableDef none line
      (modifiers c :: typeRef type line :: nameOf name line' :: parts)).Apt n := by
  have hhead := definitionHead (kind?_modifiers c) (kind?_typeRef type line) name line' parts
  refine apt_initial rfl ⟨parts, hhead, htrails⟩ ?_
  simp only [List.forall_mem_cons]
  exact ⟨(apt_modifiers hc).legal, (apt_typeRef _ _).legal, (apt_nameOf _ _).legal, hparts⟩

theorem apt_variable (hc : c.Within (n + 1)) (hd : d.Within (n + 1)) :
    (variable_ c d).Apt n := by
  refine apt_variableDef hc (trails_arrayMark_append _ _ _) (List.forall_mem_append.mpr ⟨?_, ?_⟩)
  · exact fun p hp => (apt_arrayMark d d.line p hp).legal
  · exact forall_mem_toList_map.mpr fun value hvalue =>
      legal_initializer (hd.get? hvalue)

theorem apt_variableDefs (hc : c.Within (n + 1)) : ∀ p ∈ variableDefs c, p.Apt n := by
  rw [variableDefs, List.forall_mem_map]
  intro d hd
  exact apt_variable hc (hc.child (List.mem_filter.mp hd).1).succ

theorem apt_component (hc : c.Within (n + 1)) : (component c).Apt n :=
  apt_variableDef hc (trails_arrayMark _ _) fun p hp => (apt_arrayMark c c.line p hp).legal

theorem apt_parameter (hc : c.Within (n + 1)) : (parameter c).Apt n := by
  refine apt_node nofun ⟨[], definitionHead (kind?_modifiers c) (kind?_typeRef _ _) _ _ _⟩ ?_
  simp only [List.forall_mem_cons]
  exact ⟨apt_modifiers hc, apt_typeRef _ _, apt_nameOf _ _, List.forall_mem_nil _⟩

theorem apt_parameters {list : Option Cst} (hlist : ∀ l, list = some l → l.Within (n + 1))
    (line : Nat) : (parameters list line).Apt n := by
  cases list with
  | none => exact apt_leaf rfl nofun
  | some list =>
    refine apt_node nofun trivial ?_
    rw [List.forall_mem_map]
    intro d hd
    have hmem := (List.mem_filter.mp (List.mem_filter.mp hd).1).1
    exact apt_parameter ((hlist list rfl).child hmem).succ

theorem apt_inferredParameter (c : Cst) : (inferredParameter c).Apt n := by
  refine apt_node nofun ⟨[], definitionHead rfl rfl _ _ _⟩ ?_
  simp only [List.forall_mem_cons]
  exact ⟨apt_leaf rfl nofun, apt_leaf rfl nofun, apt_nameOf _ _, List.forall_mem_nil _⟩

theorem apt_nest (hc : c.Within (n + 1)) (hkind : kind ≠ .assign)
    (hsuits : Suits (holes c.named) kind) : (nest kind c).Apt n :=
  apt_node hkind hsuits (apt_holes (hc.named))

theorem apt_resource (hc : c.Within (n + 1)) : (resource c).Apt n := by
  rw [resource]
  split
  · exact apt_nest hc nofun trivial
  · exact apt_variableDef hc (trails_initializer _ c) (forall_mem_toList_map.mpr
      fun value hvalue => legal_initializer (hc.get? hvalue))

theorem apt_clause (c : Cst) (hkind : kind ∈ [.extendsClause, .implementsClause]) :
    (clause kind c).Apt n := by
  have hsuits : kind ≠ .assign ∧ ∀ parts, Suits parts kind := by
    rcases List.mem_pair.mp hkind with rfl | rfl
    · exact ⟨nofun, fun _ => trivial⟩
    · exact ⟨nofun, fun _ => trivial⟩
  refine apt_node hsuits.1 (hsuits.2 _) ?_
  rw [List.forall_mem_map]
  exact fun type _ => apt_qualified _ _

theorem apt_clauses (c : Cst) : ∀ p ∈ c.named.filterMap clause?, p.Apt n := by
  intro p hp
  obtain ⟨d, -, hd⟩ := List.mem_filterMap.mp hp
  rw [clause?] at hd
  split at hd
  · cases hd
    exact apt_clause d (by simp)
  · cases hd
    exact apt_clause d (by simp)
  · cases hd
    exact apt_clause d (by simp)
  · cases hd

theorem apt_body (hc : c.Within (n + 1)) {components : Option Cst}
    (hcomponents : ∀ l, components = some l → l.Within (n + 1)) : (body c components).Apt n := by
  refine apt_node nofun trivial (List.forall_mem_append.mpr ⟨?_, ?_⟩)
  · cases components with
    | none => exact List.forall_mem_nil _
    | some list =>
      simp only [List.forall_mem_map]
      intro d hd
      exact apt_component ((hcomponents list rfl).named d (List.mem_filter.mp hd).1).succ
  · intro p hp
    obtain ⟨d, hd, hp⟩ := List.mem_flatMap.mp hp
    have hconf := hc.named d hd
    rw [member] at hp
    split at hp
    · exact apt_holes hconf.succ.named p hp
    · rw [List.mem_singleton.mp hp]
      exact apt_hole hconf

theorem suits_typeDef (hkind : kind ∈ [.classDef, .interfaceDef, .enumDef]) {name : Option Cst}
    (hname : nameOf name line ∈ parts) : kind ≠ .assign ∧ Suits parts kind := by
  obtain ⟨line', h⟩ := nameOf_eq name line
  rw [h] at hname
  simp only [List.mem_cons, List.not_mem_nil, or_false] at hkind
  rcases hkind with rfl | rfl | rfl
  · exact ⟨nofun, _, line', hname⟩
  · exact ⟨nofun, _, line', hname⟩
  · exact ⟨nofun, _, line', hname⟩

theorem apt_typeDeclaration (hc : c.Within (n + 1))
    (hkind : kind ∈ [.classDef, .interfaceDef, .enumDef]) : (typeDeclaration kind c).Apt n := by
  obtain ⟨hassign, hsuits⟩ :=
    suits_typeDef hkind (List.mem_append_left _ (List.mem_append_left _ (List.mem_cons_of_mem _
      (List.mem_singleton_self (nameOf (c.get? .name) c.line)))))
  refine apt_node hassign hsuits ?_
  rw [List.forall_mem_append, List.forall_mem_append, List.forall_mem_cons,
    List.forall_mem_singleton, List.forall_mem_singleton]
  refine ⟨⟨⟨apt_modifiers hc, apt_nameOf _ _⟩, apt_clauses c⟩, ?_⟩
  split
  · next b hb =>
    refine apt_body (hc.get? hb).succ fun l hl => ?_
    split at hl
    · exact (hc.get? hl).succ
    · cases hl
  · exact apt_leaf rfl nofun

theorem apt_method (hc : c.Within (n + 1)) : (method c).Apt n := by
  refine apt_node nofun trivial (List.forall_mem_append.mpr ⟨?_, ?_⟩)
  · simp only [List.forall_mem_cons]
    exact ⟨apt_modifiers hc, apt_typeRef _ _, apt_nameOf _ _,
      apt_parameters (fun _ h => (hc.get? h).succ) _, List.forall_mem_nil _⟩
  · exact apt_holes fun d hd => hc.get? (Option.mem_toList.mp hd)

theorem apt_constructor (hc : c.Within (n + 1)) : (constructor_ c).Apt n := by
  refine apt_node nofun trivial (List.forall_mem_append.mpr ⟨?_, ?_⟩)
  · simp only [List.forall_mem_cons]
    exact ⟨apt_modifiers hc, apt_nameOf _ _,
      apt_parameters (fun _ h => (hc.get? h).succ) _, List.forall_mem_nil _⟩
  · exact apt_holes fun d hd => hc.get? (Option.mem_toList.mp hd)

theorem apt_forEach (hc : c.Within (n + 1)) : (forEach c).Apt n := by
  refine apt_node nofun trivial ?_
  rw [List.forall_mem_append, List.forall_mem_append, List.forall_mem_singleton]
  refine ⟨⟨apt_variableDef hc .nothing (List.forall_mem_nil _), ?_⟩, ?_⟩
  · exact forall_mem_toList_map.mpr fun value hvalue => apt_expr (hc.get? hvalue)
  · exact apt_holes fun d hd => hc.get? (Option.mem_toList.mp hd)

theorem apt_lambdaParameters (hc : c.Within (n + 1)) : (lambdaParameters c).Apt n := by
  rw [lambdaParameters]
  split
  · exact apt_leaf rfl nofun
  · next list hlist =>
    split
    · exact apt_node nofun trivial (List.forall_mem_singleton.mpr (apt_inferredParameter list))
    · refine apt_node nofun trivial ?_
      rw [List.forall_mem_map]
      exact fun d _ => apt_inferredParameter d
    · refine apt_parameters (fun l hl => ?_) c.line
      cases hl
      exact (hc.get? hlist).succ

theorem apt_lambda (hc : c.Within (n + 1)) : (lambda c).Apt n := by
  refine apt_node nofun trivial (List.forall_mem_cons.mpr ⟨apt_lambdaParameters hc, ?_⟩)
  split
  · exact List.forall_mem_nil _
  · next b hb =>
    rw [List.forall_mem_singleton]
    split
    · exact apt_hole (hc.get? hb)
    · exact apt_expr (hc.get? hb)

theorem isValue_of_get? {f : Field} (hc : c.conforms = true)
    (hkinds : ∀ k ∈ Grammar.kindsIn c.kind (some f), k ∈ .super :: Grammar.expressions)
    (hd : c.get? f = some d) : d.isValue = true :=
  List.contains_iff_mem.mpr (hkinds _ (Cst.kind_of_get? hc hd))

theorem isPlace_of_left (hc : c.conforms = true) (hk : c.kind = .assignmentExpression)
    (hd : c.get? .left = some d) : d.isPlace = true := by
  have hkinds := Cst.kind_of_get? hc hd
  rw [hk] at hkinds
  have hall : ∀ k ∈ Grammar.kindsIn .assignmentExpression (some .left),
      (k matches .identifier | .fieldAccess | .arrayAccess) = true := by decide
  exact hall _ hkinds

theorem assignment_parts (hc : c.Within (n + 1)) (hk : c.kind = .assignmentExpression) :
    ∃ left right, holes (c.get? .left).toList ++ holes (c.get? .right).toList =
      [.hole left, .hole right] ∧ (left.Within n ∧ left.isPlace = true) ∧
        right.Within n ∧ right.isValue = true := by
  obtain ⟨left, hleft⟩ : ∃ d, c.get? .left = some d :=
    Cst.exists_get? hc.conforms (by rw [hk]; decide)
  obtain ⟨right, hright⟩ : ∃ d, c.get? .right = some d :=
    Cst.exists_get? hc.conforms (by rw [hk]; decide)
  have hplace := isPlace_of_left hc.conforms hk hleft
  have hvalue := isValue_of_get? hc.conforms (by rw [hk]; decide) hright
  refine ⟨left, right, by rw [hleft, hright]; rfl, ⟨hc.get? hleft, hplace⟩,
    hc.get? hright, hvalue⟩

theorem apt_assignment (hc : c.Within (n + 1)) (hk : c.kind = .assignmentExpression) :
    (assignment c).Apt n := by
  obtain ⟨left, right, hparts, ⟨hl, hplace⟩, hr, hvalue⟩ := assignment_parts hc hk
  have hapt : ∀ p ∈ [hole left, hole right], p.Apt n := by
    simp only [List.forall_mem_cons]
    exact ⟨apt_hole hl, apt_hole hr, List.forall_mem_nil _⟩
  rw [assignment, hparts]
  split
  · constructor
    · exact ⟨trivial, fun _ p hp => (hapt p hp).reassigns,
        legalAll_iff.mpr fun p hp => (hapt p hp).legal⟩
    · exact ⟨left, right, rfl, hplace, hvalue⟩
  · exact apt_node nofun trivial hapt

theorem apt_operator (hc : c.Within (n + 1)) : (operator c).Apt n :=
  apt_node nofun trivial (apt_holes (hc.named))

theorem apt_chain (hc : c.Within (n + 1)) : (chain c).Apt n := by
  revert hc
  refine chain_induction (motive := fun c p => c.Within (n + 1) → p.Apt n) ?_ ?_ c
  · intro c _ hc
    exact apt_operator hc
  · intro c left inner hleft _ ih hc
    refine apt_node nofun trivial (List.forall_mem_cons.mpr ⟨ih (hc.get? hleft).succ, ?_⟩)
    exact apt_holes fun d hd => hc.named d (List.mem_filter.mp hd).1

theorem apt_fieldAccess (hc : c.Within (n + 1)) (hk : c.kind = .fieldAccess) :
    (fieldAccess c).Apt n := by
  rw [fieldAccess]
  split
  · next object field hobject hfield =>
    refine apt_node nofun ⟨_, _, rfl, ?_, ?_⟩ ?_
    · exact isValue_of_get? hc.conforms (by rw [hk]; decide) hobject
    · exact isValue_of_get? hc.conforms (by rw [hk]; decide) hfield
    · simp only [List.forall_mem_cons]
      exact ⟨apt_hole (hc.get? hobject), apt_hole (hc.get? hfield),
        List.forall_mem_nil _⟩
  · exact apt_nest hc nofun trivial

theorem apt_methodCall (hc : c.Within (n + 1)) (hk : c.kind = .methodInvocation) :
    (methodCall c).Apt n := by
  refine apt_node nofun trivial ?_
  simp only [List.forall_mem_cons]
  refine ⟨?_, ?_, List.forall_mem_nil _⟩
  · split
    · next object hobject =>
      split
      · obtain ⟨line, hname⟩ := nameOf_eq (c.get? .name) c.line
        rw [hname]
        refine apt_node nofun ⟨_, _, rfl, ?_, trivial⟩ ?_
        · exact isValue_of_get? hc.conforms (by rw [hk]; decide) hobject
        · simp only [List.forall_mem_cons]
          exact ⟨apt_hole (hc.get? hobject), apt_ident _ _, List.forall_mem_nil _⟩
      · exact apt_nameOf _ _
    · exact apt_nameOf _ _
  · split
    · next list hlist => exact apt_hole (hc.get? hlist)
    · exact apt_leaf rfl nofun

theorem apt_arrayAccess (hc : c.Within (n + 1)) : (arrayAccess c).Apt n := by
  rw [arrayAccess]
  split
  · next array index harray hindex =>
    refine apt_node nofun trivial ?_
    simp only [List.forall_mem_cons]
    exact ⟨apt_hole (hc.get? harray), apt_expr (hc.get? hindex),
      List.forall_mem_nil _⟩
  · exact apt_nest hc nofun trivial

theorem apt_creation (hc : c.Within (n + 1)) : (creation c).Apt n := by
  refine apt_node nofun trivial (List.forall_mem_cons.mpr ⟨apt_typeRef _ _, ?_⟩)
  exact apt_holes fun d hd => hc.named d (List.mem_filter.mp hd).1

/-- Every plan of a conforming node is legal wherever it stands. -/
theorem apt_ofCst (hc : c.Within (n + 1)) : ∀ p ∈ ofCst c, p.Apt n := by
  have hform := form_ofCst c
  generalize ofCst c = plans at hform ⊢
  cases hform with
  | comment _ => exact List.forall_mem_nil _
  | literal _ => exact List.forall_mem_singleton.mpr (apt_token rfl nofun)
  | package _ => exact apt_package hc.conforms
  | import_ _ => exact apt_import hc.conforms
  | typeDeclaration kind hkind _ =>
    exact List.forall_mem_singleton.mpr (apt_typeDeclaration hc hkind)
  | body _ => exact List.forall_mem_singleton.mpr (apt_body hc nofun)
  | variableDefs _ => exact apt_variableDefs hc
  | method _ => exact List.forall_mem_singleton.mpr (apt_method hc)
  | constructor_ _ => exact List.forall_mem_singleton.mpr (apt_constructor hc)
  | parameter _ => exact List.forall_mem_singleton.mpr (apt_parameter hc)
  | resource _ => exact List.forall_mem_singleton.mpr (apt_resource hc)
  | forEach _ => exact List.forall_mem_singleton.mpr (apt_forEach hc)
  | lambda _ => exact List.forall_mem_singleton.mpr (apt_lambda hc)
  | modifierList _ => exact List.forall_mem_singleton.mpr (apt_modifierList hc)
  | annotated _ => exact List.forall_mem_singleton.mpr (apt_annotated hc)
  | group kind hkind =>
    have hsuits : kind ≠ .assign ∧ Suits (holes c.named) kind := by
      simp only [List.mem_cons, Prod.mk.injEq, List.not_mem_nil, or_false] at hkind
      rcases hkind with ⟨-, rfl⟩ | ⟨-, rfl⟩ | ⟨-, rfl⟩ | ⟨-, rfl⟩ | ⟨-, rfl⟩ | ⟨-, rfl⟩ <;>
        exact ⟨nofun, trivial⟩
    exact List.forall_mem_singleton.mpr (apt_nest hc hsuits.1 hsuits.2)
  | parentheses _ => exact apt_holes (hc.named)
  | assignment hk => exact List.forall_mem_singleton.mpr (apt_assignment hc hk)
  | chain _ => exact List.forall_mem_singleton.mpr (apt_chain hc)
  | operator _ => exact List.forall_mem_singleton.mpr (apt_operator hc)
  | fieldAccess hk => exact List.forall_mem_singleton.mpr (apt_fieldAccess hc hk)
  | methodCall hk => exact List.forall_mem_singleton.mpr (apt_methodCall hc hk)
  | arrayAccess _ => exact List.forall_mem_singleton.mpr (apt_arrayAccess hc)
  | creation _ => exact List.forall_mem_singleton.mpr (apt_creation hc)
  | self kind hkind =>
    have hleaf : kind ≠ .assign ∧ (Term.leaf kind c.line).fault = none := by
      simp only [List.mem_cons, Prod.mk.injEq, List.not_mem_nil, or_false] at hkind
      rcases hkind with ⟨-, rfl⟩ | ⟨-, rfl⟩ <;> exact ⟨nofun, rfl⟩
    exact List.forall_mem_singleton.mpr (apt_leaf hleaf.2 hleaf.1)
  | word _ => exact List.forall_mem_singleton.mpr (apt_ident _ _)
  | dotted _ => exact List.forall_mem_singleton.mpr (apt_qualified _ _)
  | type _ => exact List.forall_mem_singleton.mpr (apt_typeRef _ _)
  | other _ => exact List.forall_mem_singleton.mpr (apt_nest hc nofun trivial)

end Plan

end ArchLint.Java
