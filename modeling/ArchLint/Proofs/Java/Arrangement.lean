import ArchLint.Proofs.Java.Pending
import ArchLint.Proofs.Java.Shape
import ArchLint.Proofs.Syntax.Arrangement

/-!
# What lowering puts below what

The grammar lets parameters stand in their lists and in catch clauses only, and nothing but members
in bodies. So the plan of a conforming node puts every node where it is admitted, and the whole tree
of a file is arranged.
-/

namespace ArchLint.Java

open Syntax (Term Tree)

namespace Kind

def definesParameter (k : Kind) : Bool :=
  k matches .formalParameter | .spreadParameter | .catchFormalParameter

def listsParameters (k : Kind) : Bool :=
  k matches .formalParameters | .catchClause

def isBodyPart (k : Kind) : Bool :=
  (.enumConstant :: Grammar.classMembers ++ Grammar.interfaceMembers ++
    Grammar.annotationMembers).contains k

/-- A node of this kind may be lowered to a node of kind `s`. -/
def mayBecome (k : Kind) (s : Syntax.Kind) : Bool :=
  !k.isComment && s ≠ .parameters && (s ≠ .parameterDef || k.definesParameter) &&
    (!k.isBodyPart || s.isMember)

end Kind

/-- A conforming node in which no parameters stand. -/
structure Cst.Hosts (c : Cst) : Prop where
  conforms : c.conforms = true
  plain : c.kind.listsParameters = false

namespace Plan

/-- The plan may make a node of kind `s`. -/
def Shows : Plan → Syntax.Kind → Prop
  | .node kind _ _ _, s => s = kind
  | .done T, s => s = T.kind
  | .hole c, s => c.kind.mayBecome s = true

mutual

/-- Every node has parts that it admits, and what is still to be lowered conforms to the grammar. -/
def Housed : Plan → Prop
  | .node kind _ _ parts =>
    (∀ p ∈ parts, ∀ s, p.Shows s → kind.admits s = true) ∧
      (kind.isClause = true → ∀ p ∈ parts, ∃ name line, p = qualified name line) ∧
      HousedAll parts
  | .done T => T.Arranged
  | .hole c => c.conforms = true

def HousedAll : List Plan → Prop
  | [] => True
  | p :: ps => p.Housed ∧ HousedAll ps

end

/-- A plan that makes no parameters and no list of them, and may stand wherever those may not. -/
structure Loose (p : Plan) : Prop where
  housed : p.Housed
  shows : ∀ s, p.Shows s → s ≠ .parameterDef ∧ s ≠ .parameters

variable {c d : Cst} {f : Field} {p : Plan} {ps : List Plan} {kind : Syntax.Kind}
  {text : Option String} {line : Nat}

theorem housedAll_iff : HousedAll ps ↔ ∀ p ∈ ps, p.Housed := by
  induction ps with
  | nil => simp [HousedAll]
  | cons p ps ih => simp [HousedAll, ih]

theorem Shows.eq {s : Syntax.Kind} (hs : p.Shows s) (hp : p.kind? = some kind) : s = kind := by
  cases p with
  | node k _ _ _ => exact Eq.trans hs (Option.some.inj hp)
  | done T => exact Eq.trans hs (Option.some.inj hp)
  | hole d => cases hp

def isOpen (k : Syntax.Kind) : Bool :=
  !(k matches .classDef | .objBlock | .extendsClause | .implementsClause | .ident | .parameters)

theorem admits_of_isOpen {s : Syntax.Kind} (hk : isOpen kind = true)
    (hs : s ≠ .parameterDef ∧ s ≠ .parameters) : kind.admits s = true := by
  have hdef := decide_eq_true hs.1
  have hlist := decide_eq_true hs.2
  cases kind with
  | classDef | objBlock | extendsClause | implementsClause | ident | parameters => cases hk
  | methodDef | ctorDef | lambda => exact hdef
  | other => exact hlist
  | _ => exact Bool.and_eq_true_iff.mpr ⟨hdef, hlist⟩

theorem not_isClause_of_isOpen (hk : isOpen kind = true) : ¬ kind.isClause = true := by
  revert hk
  cases kind <;> decide

theorem housed_node (hk : isOpen kind = true) (hps : ∀ p ∈ ps, p.Loose) :
    (node kind text line ps).Housed :=
  ⟨fun p hp s hs => admits_of_isOpen hk ((hps p hp).shows s hs),
    fun hclause => absurd hclause (not_isClause_of_isOpen hk),
    housedAll_iff.mpr fun p hp => (hps p hp).housed⟩

theorem loose_node (hk : isOpen kind = true) (hne : kind ≠ .parameterDef)
    (hps : ∀ p ∈ ps, p.Loose) : (node kind text line ps).Loose := by
  refine ⟨housed_node hk hps, ?_⟩
  rintro s rfl
  refine ⟨hne, ?_⟩
  rintro rfl
  cases hk

theorem loose_done {T : Term} (hT : T.Arranged)
    (hk : T.kind ≠ .parameterDef ∧ T.kind ≠ .parameters) : (done T).Loose := by
  refine ⟨hT, ?_⟩
  rintro s rfl
  exact hk

theorem loose_leaf (hk : kind ≠ .parameterDef ∧ kind ≠ .parameters) : (leaf kind line).Loose :=
  loose_done (Term.arranged_childless kind none line) hk

theorem loose_token {name : String} (hk : kind ≠ .parameterDef ∧ kind ≠ .parameters) :
    (token kind name line).Loose :=
  loose_done (Term.arranged_childless kind (some name) line) hk

theorem loose_qualified (name : String) (line : Nat) : (qualified name line).Loose := by
  have hnames := Term.names_qualified name line
  refine loose_done hnames.arranged ⟨?_, ?_⟩ <;>
  · intro hk
    have hkind := hnames.kind
    rw [hk] at hkind
    cases hkind

theorem definesParameter_of_child (hc : c.Hosts) (hd : d ∈ c.children) :
    d.kind.definesParameter = false := by
  have htable : ∀ k : Kind, k.listsParameters = false →
      ∀ s ∈ (Grammar.content k).slots, ∀ k' ∈ s.kinds, k'.definesParameter = false := by
    intro k
    cases k <;> decide
  rcases Cst.exists_slot_of_mem (Cst.fits_parts hc.conforms) hd with hcomment | ⟨s, hs, -, hkind⟩
  · rcases Kind.isComment_iff.mp hcomment with hk | hk <;> rw [hk] <;> rfl
  · exact htable c.kind hc.plain s hs d.kind hkind

theorem loose_hole (hc : c.Hosts) (hd : d ∈ c.children) : (hole d).Loose := by
  refine ⟨Cst.conforms_child hc.conforms hd, fun s hs => ?_⟩
  have hout := definesParameter_of_child hc hd
  simp only [Shows, Kind.mayBecome, hout, Bool.and_eq_true, Bool.or_false, decide_eq_true_eq] at hs
  exact ⟨hs.1.2, hs.1.1.2⟩

theorem loose_holes {cs : List Cst} (hc : c.Hosts) (hcs : ∀ d ∈ cs, d ∈ c.children) :
    ∀ p ∈ holes cs, p.Loose := by
  rw [holes, List.forall_mem_map]
  exact fun d hd => loose_hole hc (hcs d hd)

theorem loose_named (hc : c.Hosts) : ∀ p ∈ holes c.named, p.Loose :=
  loose_holes hc fun _ hd => (List.mem_filter.mp hd).1

theorem loose_role (hc : c.Hosts) (f : Field) : ∀ p ∈ holes (c.get? f).toList, p.Loose :=
  loose_holes hc fun _ hd => (Cst.mem_of_get? (Option.mem_toList.mp hd)).1

theorem loose_expr (hd : (hole d).Loose) : (expr d).Loose :=
  loose_node rfl (by decide) (List.forall_mem_singleton.mpr hd)

theorem loose_toList {o : Option Cst} {g : Cst → Plan} (h : ∀ d, o = some d → (g d).Loose) :
    ∀ p ∈ (o.map g).toList, p.Loose := by
  cases o with
  | none => exact List.forall_mem_nil _
  | some d => exact List.forall_mem_singleton.mpr (h d rfl)

theorem hosts_of_get? (hc : c.conforms = true) (hf : f ≠ .parameters) (hd : c.get? f = some d) :
    d.Hosts := by
  obtain ⟨hmem, hfield⟩ := Cst.mem_of_get? hd
  refine ⟨Cst.conforms_child hc hmem, ?_⟩
  have htable : ∀ k : Kind, ∀ s ∈ (Grammar.content k).slots, ∀ k' ∈ s.kinds,
      k'.listsParameters = true → s.field = some .parameters ∨ s.field = none := by
    intro k
    cases k <;> decide
  rcases Cst.exists_slot_of_mem (Cst.fits_parts hc) hmem with hcomment | ⟨s, hs, hslot, hkind⟩
  · rw [Cst.isComment_of_field hc hmem hfield] at hcomment
    cases hcomment
  · by_contra hlists
    rw [Bool.not_eq_false] at hlists
    rw [hfield] at hslot
    rcases htable c.kind s hs d.kind hkind hlists with hs | hs
    · exact hf (Option.some.inj (hslot.trans hs))
    · rw [hs] at hslot
      cases hslot

theorem loose_nameOf (name : Option Cst) (line : Nat) : (nameOf name line).Loose := by
  obtain ⟨line', h⟩ := nameOf_eq name line
  rw [h]
  exact loose_token (by decide)

theorem loose_typeRef (type : Option Cst) (line : Nat) : (typeRef type line).Loose := by
  cases type with
  | none => exact loose_leaf (by decide)
  | some type =>
    refine loose_node rfl (by decide) (List.forall_mem_cons.mpr ⟨loose_qualified _ _, ?_⟩)
    split
    · exact List.forall_mem_singleton.mpr (loose_leaf (by decide))
    · exact List.forall_mem_nil _

theorem loose_annotationArgument (hd : (hole d).Loose) : (annotationArgument d).Loose := by
  rw [annotationArgument]
  split
  · next hk =>
    have hhosts : d.Hosts := ⟨hd.housed, by rw [hk]; rfl⟩
    refine loose_node rfl (by decide) (List.forall_mem_append.mpr ⟨?_, ?_⟩)
    · exact List.forall_mem_cons.mpr
        ⟨loose_nameOf _ _, List.forall_mem_singleton.mpr (loose_leaf (by decide))⟩
    · exact loose_toList fun value hvalue =>
        loose_expr (loose_hole hhosts (Cst.mem_of_get? hvalue).1)
  · exact loose_expr hd

theorem loose_annotated (hc : c.conforms = true) : (annotated c).Loose := by
  refine loose_node rfl (by decide) (List.forall_mem_append.mpr ⟨?_, ?_⟩)
  · exact loose_toList fun name _ => loose_qualified _ _
  · split
    · next arguments hget =>
      have hhosts := hosts_of_get? hc (by decide) hget
      rw [List.forall_mem_map]
      intro d hd
      have hmem := (List.mem_filter.mp (List.mem_filter.mp hd).1).1
      exact loose_annotationArgument (loose_hole hhosts hmem)
    · exact List.forall_mem_nil _

theorem loose_modifierList (hc : c.conforms = true) : (modifierList c).Loose := by
  refine loose_node rfl (by decide) fun p hp => ?_
  obtain ⟨d, hd, hp⟩ := List.mem_filterMap.mp hp
  rw [modifier] at hp
  split at hp
  · cases hp
    exact loose_annotated (Cst.conforms_child hc hd)
  · split at hp
    · cases hp
    · cases hp
      exact loose_token (by decide)

theorem loose_modifiers (hc : c.conforms = true) : (modifiers c).Loose := by
  rw [modifiers]
  split
  · next list hlist =>
    have hmem := (List.mem_filter.mp (List.mem_of_find?_eq_some hlist)).1
    exact loose_modifierList (Cst.conforms_child hc hmem)
  · exact loose_leaf (by decide)

theorem loose_naming (kind : Syntax.Kind) (hk : isOpen kind = true) (hne : kind ≠ .parameterDef)
    (name : String) (line line' : Nat) : (node kind none line [qualified name line']).Loose :=
  loose_node hk hne (List.forall_mem_singleton.mpr (loose_qualified _ _))

theorem loose_initializer (c : Cst) (hd : (hole d).Loose) : (initializer c d).Loose := by
  refine loose_node rfl (by decide) (List.forall_mem_singleton.mpr ?_)
  split
  · exact hd
  · exact loose_expr hd

theorem loose_arrayMark (c : Cst) (line : Nat) : ∀ p ∈ arrayMark c line, p.Loose := by
  rw [arrayMark]
  split
  · exact List.forall_mem_singleton.mpr (loose_leaf (by decide))
  · exact List.forall_mem_nil _

theorem loose_definition (hc : c.conforms = true) (type name : Option Cst) (line line' : Nat)
    (hps : ∀ p ∈ ps, p.Loose) :
    ∀ p ∈ modifiers c :: typeRef type line :: nameOf name line' :: ps, p.Loose := by
  simp only [List.forall_mem_cons]
  exact ⟨loose_modifiers hc, loose_typeRef _ _, loose_nameOf _ _, hps⟩

theorem loose_variable (hc : c.conforms = true) (hd : d.Hosts) : (variable_ c d).Loose := by
  refine loose_node rfl (by decide) (loose_definition hc _ _ _ _ (List.forall_mem_append.mpr ⟨?_, ?_⟩))
  · exact loose_arrayMark _ _
  · exact loose_toList fun value hvalue =>
      loose_initializer d (loose_hole hd (Cst.mem_of_get? hvalue).1)

theorem loose_component (hc : c.conforms = true) : (component c).Loose :=
  loose_node rfl (by decide) (loose_definition hc _ _ _ _ (loose_arrayMark _ _))

theorem housed_parameter (hc : c.conforms = true) : (parameter c).Housed :=
  housed_node rfl (loose_definition hc _ _ _ _ (List.forall_mem_nil _))

theorem housed_inferredParameter (c : Cst) : (inferredParameter c).Housed := by
  refine housed_node rfl ?_
  simp only [List.forall_mem_cons]
  exact ⟨loose_leaf (by decide), loose_leaf (by decide), loose_nameOf _ _,
    List.forall_mem_nil _⟩

theorem housed_parameterList (hps : ∀ p ∈ ps, p.kind? = some .parameterDef ∧ p.Housed) :
    (node .parameters none line ps).Housed := by
  refine ⟨fun p hp s hs => ?_, ?_, housedAll_iff.mpr fun p hp => (hps p hp).2⟩
  · rw [hs.eq (hps p hp).1]
    rfl
  · intro h
    cases h

theorem housed_parameters {list : Option Cst} (line : Nat)
    (h : ∀ l, list = some l → l.conforms = true) :
    (parameters list line).kind? = some .parameters ∧ (parameters list line).Housed := by
  cases list with
  | none => exact ⟨rfl, Term.arranged_childless .parameters none line⟩
  | some list =>
    refine ⟨rfl, housed_parameterList ?_⟩
    rw [List.forall_mem_map]
    intro d hd
    have hmem := (List.mem_filter.mp (List.mem_filter.mp hd).1).1
    exact ⟨rfl, housed_parameter (Cst.conforms_child (h list rfl) hmem)⟩

theorem housed_parameters_role (hc : c.conforms = true) (line : Nat) :
    (parameters (c.get? .parameters) line).kind? = some .parameters ∧
      (parameters (c.get? .parameters) line).Housed :=
  housed_parameters line fun _ hl => Cst.conforms_child hc (Cst.mem_of_get? hl).1

theorem loose_callable (hk : kind ∈ [.methodDef, .ctorDef, .lambda])
    (hps : ∀ p ∈ ps, p.Loose ∨ p.kind? = some .parameters ∧ p.Housed) :
    (node kind text line ps).Loose := by
  have hkind : isOpen kind = true ∧ kind.admits .parameters = true ∧ kind ≠ .parameterDef ∧
      kind ≠ .parameters := by
    simp only [List.mem_cons, List.not_mem_nil, or_false] at hk
    rcases hk with rfl | rfl | rfl <;> decide
  refine ⟨⟨fun p hp s hs => ?_, fun h => absurd h (not_isClause_of_isOpen hkind.1), ?_⟩, ?_⟩
  · rcases hps p hp with hloose | ⟨hlist, -⟩
    · exact admits_of_isOpen hkind.1 (hloose.shows s hs)
    · rw [hs.eq hlist]
      exact hkind.2.1
  · refine housedAll_iff.mpr fun p hp => ?_
    rcases hps p hp with hloose | ⟨-, hhoused⟩
    · exact hloose.housed
    · exact hhoused
  · rintro s rfl
    exact hkind.2.2

theorem loose_nest (hc : c.Hosts) (hk : isOpen kind = true) (hne : kind ≠ .parameterDef) :
    (nest kind c).Loose :=
  loose_node hk hne (loose_named hc)

/-- Parameters may stand in what has no form of its own. -/
theorem loose_nest_other (hc : c.conforms = true) : (nest .other c).Loose := by
  refine ⟨⟨?_, ?_, housedAll_iff.mpr ?_⟩, ?_⟩
  · rw [holes, List.forall_mem_map]
    intro d _ s hs
    simp only [Shows, Kind.mayBecome, Bool.and_eq_true, decide_eq_true_eq] at hs
    simpa [Syntax.Kind.admits] using hs.1.1.2
  · intro h
    cases h
  · rw [holes, List.forall_mem_map]
    exact fun d hd => Cst.conforms_child hc (List.mem_filter.mp hd).1
  · rintro s rfl
    exact (by decide)

theorem loose_resource (hc : c.Hosts) : (resource c).Loose := by
  rw [resource]
  split
  · exact loose_nest_other hc.conforms
  · exact loose_node rfl (by decide) (loose_definition hc.conforms _ _ _ _
      (loose_toList fun value hvalue =>
        loose_initializer c (loose_hole hc (Cst.mem_of_get? hvalue).1)))

theorem housed_clause (hk : kind.isClause = true) (c : Cst) : (clause kind c).Housed := by
  have hadmits : ∀ s : Syntax.Kind, s.isNaming = true → kind.admits s = true := by
    intro s hs
    cases kind with
    | extendsClause | implementsClause => exact hs
    | _ => cases hk
  refine ⟨?_, fun _ => ?_, housedAll_iff.mpr ?_⟩
  · rw [List.forall_mem_map]
    rintro type - s rfl
    exact hadmits _ (Term.names_qualified _ _).kind
  · rw [List.forall_mem_map]
    exact fun type _ => ⟨_, _, rfl⟩
  · rw [List.forall_mem_map]
    exact fun type _ => (Term.names_qualified _ _).arranged

theorem housed_clauses (cs : List Cst) :
    ∀ p ∈ cs.filterMap clause?, ∃ k : Syntax.Kind, k.isClause = true ∧ p.kind? = some k ∧
      p.Housed := by
  intro p hp
  obtain ⟨d, -, hd⟩ := List.mem_filterMap.mp hp
  rw [clause?] at hd
  split at hd <;> cases hd <;> exact ⟨_, rfl, rfl, housed_clause rfl d⟩

/-- What may stand in a body becomes a member, a second body in it apart. -/
theorem housed_member (hc : c.conforms = true)
    (hslots : ((Grammar.content c.kind).slots.all fun s => s.kinds.all fun k =>
      k = .token || k = .enumBodyDeclarations || k.isBodyPart) = true) (hd : d ∈ c.named)
    (hne : d.kind ≠ .enumBodyDeclarations) :
    (hole d).Housed ∧ ∀ s, (hole d).Shows s → s.isMember = true := by
  obtain ⟨hmem, hnamed⟩ := List.mem_filter.mp hd
  refine ⟨Cst.conforms_child hc hmem, fun s hs => ?_⟩
  simp only [Shows, Kind.mayBecome, Bool.and_eq_true, Bool.or_eq_true, Bool.not_eq_true'] at hs
  rcases Cst.exists_slot_of_mem (Cst.fits_parts hc) hmem with hcomment | ⟨slot, hslot, -, hkind⟩
  · rw [Cst.isComment, hs.1.1.1] at hcomment
    cases hcomment
  · have hcase := List.all_eq_true.mp (List.all_eq_true.mp hslots slot hslot) d.kind hkind
    have hpart : d.kind.isBodyPart = true := by
      simpa [of_decide_eq_true hnamed, hne] using hcase
    refine hs.2.resolve_left fun hout => ?_
    rw [hpart] at hout
    cases hout

def bodies : List Kind :=
  [.classBody, .interfaceBody, .enumBody, .annotationTypeBody]

theorem housed_members (hc : c.conforms = true) (hk : c.kind ∈ bodies) :
    ∀ p ∈ c.named.flatMap member, p.Housed ∧ ∀ s, p.Shows s → s.isMember = true := by
  have htable : ∀ k ∈ .enumBodyDeclarations :: bodies,
      ((Grammar.content k).slots.all fun s => s.kinds.all fun k =>
        k = .token || k = .enumBodyDeclarations || k.isBodyPart) = true := by decide
  rw [List.forall_mem_flatMap]
  intro d hd
  have hconforms := Cst.conforms_child hc (List.mem_filter.mp hd).1
  rw [member]
  split
  · next hinner =>
    have hkinds : ∀ s ∈ (Grammar.content .enumBodyDeclarations).slots, ∀ k ∈ s.kinds,
        k ≠ .enumBodyDeclarations := by decide
    rw [holes, List.forall_mem_map]
    intro e he
    refine housed_member hconforms (htable d.kind (by simp [hinner])) he ?_
    rcases Cst.exists_slot_of_mem (Cst.fits_parts hconforms) (List.mem_filter.mp he).1 with
      hcomment | ⟨s, hs, -, hkind⟩
    · rintro heq
      rw [Cst.isComment, heq] at hcomment
      cases hcomment
    · rw [hinner] at hs
      exact hkinds s hs e.kind hkind
  · next hinner =>
    exact List.forall_mem_singleton.mpr
      (housed_member hc (htable c.kind (List.mem_cons_of_mem _ hk)) hd hinner)

theorem housed_objBlock (hps : ∀ p ∈ ps, p.Housed ∧ ∀ s, p.Shows s → s.isMember = true) :
    (node .objBlock none line ps).Housed := by
  refine ⟨fun p hp => (hps p hp).2, ?_, housedAll_iff.mpr fun p hp => (hps p hp).1⟩
  intro h
  cases h

theorem housed_body (hc : c.conforms = true) (hk : c.kind ∈ bodies) {components : Option Cst}
    (h : ∀ l, components = some l → l.conforms = true) : (body c components).Housed := by
  refine housed_objBlock (List.forall_mem_append.mpr ⟨?_, housed_members hc hk⟩)
  cases components with
  | none => exact List.forall_mem_nil _
  | some list =>
    simp only [List.forall_mem_map]
    intro d hd
    have hmem := (List.mem_filter.mp (List.mem_filter.mp hd).1).1
    refine ⟨(loose_component (Cst.conforms_child (h list rfl) hmem)).housed, ?_⟩
    rintro s rfl
    rfl

/-- Whatever a type declares, the last part of its definition is one block. -/
theorem exists_typeDeclaration_eq (kind : Syntax.Kind) (hc : c.conforms = true)
    (hk : c.kind ∈ [.classDeclaration, .recordDeclaration, .interfaceDeclaration,
      .annotationTypeDeclaration, .enumDeclaration]) :
    ∃ text block, typeDeclaration kind c = .node kind text c.line
        ([modifiers c, nameOf (c.get? .name) c.line] ++ c.named.filterMap clause? ++ [block]) ∧
      block.kind? = some .objBlock ∧ block.Housed := by
  rw [typeDeclaration]
  refine ⟨_, _, rfl, ?_⟩
  split
  · next b hb =>
    have htable : ∀ k ∈ [Kind.classDeclaration, .recordDeclaration, .interfaceDeclaration,
        .annotationTypeDeclaration, .enumDeclaration],
        ∀ k' ∈ Grammar.kindsIn k (some .body), k' ∈ bodies := by decide
    refine ⟨rfl, housed_body (Cst.conforms_child hc (Cst.mem_of_get? hb).1)
      (htable c.kind hk b.kind (Cst.kind_of_get? hc hb)) fun l hl => ?_⟩
    split at hl
    · exact Cst.conforms_child hc (Cst.mem_of_get? hl).1
    · cases hl
  · exact ⟨rfl, Term.arranged_childless .objBlock none c.line⟩

theorem loose_typeDeclaration (hkind : kind ∈ [.classDef, .interfaceDef, .enumDef])
    (hc : c.conforms = true)
    (hk : c.kind ∈ [.classDeclaration, .recordDeclaration, .interfaceDeclaration,
      .annotationTypeDeclaration, .enumDeclaration]) : (typeDeclaration kind c).Loose := by
  have hadmits : (∀ s : Syntax.Kind, s.headsClass = true → kind.admits s = true) ∧
      ¬ kind.isClause = true ∧ kind ≠ .parameterDef ∧ kind ≠ .parameters := by
    simp only [List.mem_cons, List.not_mem_nil, or_false] at hkind
    rcases hkind with rfl | rfl | rfl <;>
      exact ⟨fun s => by cases s <;> decide, by decide, by decide, by decide⟩
  have hclause : ∀ k : Syntax.Kind, k.isClause = true → k.headsClass = true := by
    intro k
    cases k <;> decide
  obtain ⟨text, block, heq, hblock⟩ := exists_typeDeclaration_eq kind hc hk
  -- every part makes one node, of a kind that stands at the top of a class
  have hparts : ∀ p ∈ [modifiers c, nameOf (c.get? .name) c.line] ++ c.named.filterMap clause? ++
      [block], ∃ k : Syntax.Kind, k.headsClass = true ∧ p.kind? = some k ∧ p.Housed := by
    rw [List.forall_mem_append, List.forall_mem_append, List.forall_mem_cons,
      List.forall_mem_singleton, List.forall_mem_singleton]
    refine ⟨⟨⟨?_, ?_⟩, ?_⟩, ⟨.objBlock, rfl, hblock⟩⟩
    · exact ⟨.modifiers, rfl, kind?_modifiers c, (loose_modifiers hc).housed⟩
    · obtain ⟨line, hname⟩ := nameOf_eq (c.get? .name) c.line
      exact ⟨.ident, rfl, by rw [hname]; rfl, (loose_nameOf _ _).housed⟩
    · intro p hp
      obtain ⟨k, hk, hp⟩ := housed_clauses _ p hp
      exact ⟨k, hclause k hk, hp⟩
  rw [heq]
  refine ⟨⟨fun p hp s hs => ?_, fun h => absurd h hadmits.2.1, ?_⟩, ?_⟩
  · obtain ⟨k, hk, hpk, -⟩ := hparts p hp
    rw [hs.eq hpk]
    exact hadmits.1 k hk
  · refine housedAll_iff.mpr fun p hp => ?_
    obtain ⟨k, -, -, hhoused⟩ := hparts p hp
    exact hhoused
  · rintro s rfl
    exact hadmits.2.2

theorem loose_method (hc : c.Hosts) : (method c).Loose := by
  refine loose_callable (by simp) (List.forall_mem_append.mpr ⟨?_, fun p hp => ?_⟩)
  · simp only [List.forall_mem_cons]
    exact ⟨.inl (loose_modifiers hc.conforms), .inl (loose_typeRef _ _), .inl (loose_nameOf _ _),
      .inr (housed_parameters_role hc.conforms _), List.forall_mem_nil _⟩
  · exact .inl (loose_role hc .body p hp)

theorem loose_constructor (hc : c.Hosts) : (constructor_ c).Loose := by
  refine loose_callable (by simp) (List.forall_mem_append.mpr ⟨?_, fun p hp => ?_⟩)
  · simp only [List.forall_mem_cons]
    exact ⟨.inl (loose_modifiers hc.conforms), .inl (loose_nameOf _ _),
      .inr (housed_parameters_role hc.conforms _), List.forall_mem_nil _⟩
  · exact .inl (loose_role hc .body p hp)

theorem loose_forEach (hc : c.Hosts) : (forEach c).Loose := by
  refine loose_node rfl (by decide) ?_
  rw [List.forall_mem_append, List.forall_mem_append, List.forall_mem_singleton]
  refine ⟨⟨?_, ?_⟩, loose_role hc .body⟩
  · exact loose_node rfl (by decide) (loose_definition hc.conforms _ _ _ _ (List.forall_mem_nil _))
  · exact loose_toList fun value hvalue => loose_expr (loose_hole hc (Cst.mem_of_get? hvalue).1)

theorem housed_lambdaParameters (hc : c.conforms = true) :
    (lambdaParameters c).kind? = some .parameters ∧ (lambdaParameters c).Housed := by
  rw [lambdaParameters]
  split
  · refine housed_parameters _ fun l hl => ?_
    cases hl
  · next list hlist =>
    split
    · exact ⟨rfl, housed_parameterList
        (List.forall_mem_singleton.mpr ⟨rfl, housed_inferredParameter _⟩)⟩
    · refine ⟨rfl, housed_parameterList ?_⟩
      rw [List.forall_mem_map]
      exact fun d _ => ⟨rfl, housed_inferredParameter d⟩
    · refine housed_parameters _ fun l hl => ?_
      cases hl
      exact Cst.conforms_child hc (Cst.mem_of_get? hlist).1

theorem loose_lambda (hc : c.Hosts) : (lambda c).Loose := by
  refine loose_callable (by simp)
    (List.forall_mem_cons.mpr ⟨.inr (housed_lambdaParameters hc.conforms), ?_⟩)
  split
  · exact List.forall_mem_nil _
  · next b hb =>
    have hbody := loose_hole hc (Cst.mem_of_get? hb).1
    refine List.forall_mem_singleton.mpr (.inl ?_)
    split
    · exact hbody
    · exact loose_expr hbody

theorem loose_assignment (hc : c.Hosts) : (assignment c).Loose := by
  have hparts := List.forall_mem_append.mpr ⟨loose_role hc .left, loose_role hc .right⟩
  rw [assignment]
  split
  · exact loose_node rfl (by decide) hparts
  · exact loose_node rfl (by decide) hparts

theorem loose_chain (hc : c.Hosts) : (chain c).Loose := by
  refine chain_induction (motive := fun c p => c.Hosts → p.Loose) ?_ ?_ c hc
  · intro c _ hc
    exact loose_node rfl (by decide) (loose_named hc)
  · intro c left inner hleft _ ih hc
    refine loose_node rfl (by decide) (List.forall_mem_cons.mpr ⟨?_, ?_⟩)
    · exact ih (hosts_of_get? hc.conforms (by decide) hleft)
    · exact loose_holes hc fun d hd => (List.mem_filter.mp (List.mem_filter.mp hd).1).1

theorem loose_fieldAccess (hc : c.Hosts) : (fieldAccess c).Loose := by
  rw [fieldAccess]
  split
  · next object field hobject hfield =>
    refine loose_node rfl (by decide) (List.forall_mem_cons.mpr ⟨?_, List.forall_mem_singleton.mpr ?_⟩)
    · exact loose_hole hc (Cst.mem_of_get? hobject).1
    · exact loose_hole hc (Cst.mem_of_get? hfield).1
  · exact loose_nest_other hc.conforms

theorem loose_arrayAccess (hc : c.Hosts) : (arrayAccess c).Loose := by
  rw [arrayAccess]
  split
  · next array index harray hindex =>
    refine loose_node rfl (by decide) (List.forall_mem_cons.mpr ⟨?_, List.forall_mem_singleton.mpr ?_⟩)
    · exact loose_hole hc (Cst.mem_of_get? harray).1
    · exact loose_expr (loose_hole hc (Cst.mem_of_get? hindex).1)
  · exact loose_nest_other hc.conforms

theorem loose_methodCall (hc : c.Hosts) : (methodCall c).Loose := by
  refine loose_node rfl (by decide) (List.forall_mem_cons.mpr ⟨?_, List.forall_mem_singleton.mpr ?_⟩)
  · split
    · next object hobject =>
      split
      · refine loose_node rfl (by decide)
          (List.forall_mem_cons.mpr ⟨?_, List.forall_mem_singleton.mpr (loose_nameOf _ _)⟩)
        exact loose_hole hc (Cst.mem_of_get? hobject).1
      · exact loose_nameOf _ _
    · exact loose_nameOf _ _
  · split
    · next list hlist => exact loose_hole hc (Cst.mem_of_get? hlist).1
    · exact loose_leaf (by decide)

theorem loose_creation (hc : c.Hosts) : (creation c).Loose := by
  refine loose_node rfl (by decide) (List.forall_mem_cons.mpr ⟨loose_typeRef _ _, ?_⟩)
  exact loose_holes hc fun d hd => (List.mem_filter.mp (List.mem_filter.mp hd).1).1

/-- What the plan makes is admitted wherever the node may stand. -/
structure Suited (c : Cst) (p : Plan) : Prop where
  housed : p.Housed
  shows : ∀ s, p.Shows s → c.kind.mayBecome s = true

variable {ks : List Kind} {plans : List Plan}

theorem suited_of_kind? (hp : p.Housed) (hkind : p.kind? = some kind) (hk : c.kind ∈ ks)
    (hks : ∀ k ∈ ks, k.mayBecome kind = true) : Suited c p := by
  refine ⟨hp, fun s hs => ?_⟩
  rw [hs.eq hkind]
  exact hks c.kind hk

theorem Loose.suited (hp : p.Loose) (hk : c.kind.isComment = false ∧ c.kind.isBodyPart = false) :
    Suited c p := by
  refine ⟨hp.housed, fun s hs => ?_⟩
  obtain ⟨hdef, hlist⟩ := hp.shows s hs
  simp [Kind.mayBecome, hk, hdef, hlist]

theorem Loose.suited_of_mem (hp : p.Loose) (hk : c.kind ∈ ks)
    (hks : ∀ k ∈ ks, k.isComment = false ∧ k.isBodyPart = false) : Suited c p :=
  hp.suited (hks c.kind hk)

theorem hosts_of_mem (hc : c.conforms = true) (hk : c.kind ∈ ks)
    (hks : ∀ k ∈ ks, k.listsParameters = false) : c.Hosts :=
  ⟨hc, hks c.kind hk⟩

/-- One case for each form. -/
theorem Form.suited (h : Form c plans) (hc : c.conforms = true) : ∀ p ∈ plans, Suited c p := by
  cases h with
  | comment _ => exact List.forall_mem_nil _
  | literal hk =>
    have htable : ∀ k : Kind, k.isLiteral = true → k.isComment = false ∧ k.isBodyPart = false := by
      intro k
      cases k <;> decide
    have hloose : (token .literal c.text c.line).Loose := loose_token (by decide)
    exact List.forall_mem_singleton.mpr (hloose.suited (htable c.kind hk))
  | package hk =>
    rw [Plan.package]
    split
    · exact List.forall_mem_nil _
    · have hloose := loose_naming .packageDef rfl (by decide)
      exact List.forall_mem_singleton.mpr
        ((hloose _ _ _).suited_of_mem (List.mem_singleton.mpr hk) (by decide))
  | import_ hk =>
    rw [Plan.import_]
    split
    · exact List.forall_mem_nil _
    · refine List.forall_mem_singleton.mpr
        (Loose.suited_of_mem ?_ (List.mem_singleton.mpr hk) (by decide))
      split
      · exact loose_naming .staticImport rfl (by decide) _ _ _
      · exact loose_naming .importDef rfl (by decide) _ _ _
  | typeDeclaration kind hkind hk =>
    have htable : ∀ s ∈ [Syntax.Kind.classDef, .interfaceDef, .enumDef],
        ∀ k ∈ [Kind.classDeclaration, .recordDeclaration, .interfaceDeclaration,
          .annotationTypeDeclaration, .enumDeclaration], k.mayBecome s = true := by decide
    exact List.forall_mem_singleton.mpr
      (suited_of_kind? (loose_typeDeclaration hkind hc hk).housed rfl hk (htable kind hkind))
  | body hk =>
    refine List.forall_mem_singleton.mpr
      (suited_of_kind? (housed_body hc hk fun l hl => ?_) rfl hk (by decide))
    cases hl
  | variableDefs hk =>
    have htable : ∀ k ∈ [Kind.fieldDeclaration, .constantDeclaration, .localVariableDeclaration],
        k.mayBecome .variableDef = true := by decide
    rw [Plan.variableDefs, List.forall_mem_map]
    intro d hd
    obtain ⟨hmem, hfield⟩ := List.mem_filter.mp hd
    have hkinds : ∀ k ∈ [Kind.fieldDeclaration, .constantDeclaration, .localVariableDeclaration],
        ∀ k' ∈ Grammar.kindsIn k (some .declarator), k'.listsParameters = false := by decide
    have hhosts : d.Hosts := ⟨Cst.conforms_child hc hmem, hkinds c.kind hk d.kind
      (Cst.kind_of_field hc hmem (of_decide_eq_true hfield))⟩
    exact suited_of_kind? (loose_variable hc hhosts).housed rfl hk htable
  | method hk =>
    have hhosts := hosts_of_mem hc hk (by decide)
    exact List.forall_mem_singleton.mpr
      (suited_of_kind? (loose_method hhosts).housed rfl hk (by decide))
  | constructor_ hk =>
    have hhosts := hosts_of_mem hc hk (by decide)
    exact List.forall_mem_singleton.mpr
      (suited_of_kind? (loose_constructor hhosts).housed rfl hk (by decide))
  | parameter hk =>
    exact List.forall_mem_singleton.mpr
      (suited_of_kind? (housed_parameter hc) rfl hk (by decide))
  | resource hk =>
    have hk := List.mem_singleton.mpr hk
    exact List.forall_mem_singleton.mpr
      ((loose_resource (hosts_of_mem hc hk (by decide))).suited_of_mem hk (by decide))
  | forEach hk =>
    have hk := List.mem_singleton.mpr hk
    exact List.forall_mem_singleton.mpr
      ((loose_forEach (hosts_of_mem hc hk (by decide))).suited_of_mem hk (by decide))
  | lambda hk =>
    have hk := List.mem_singleton.mpr hk
    exact List.forall_mem_singleton.mpr
      ((loose_lambda (hosts_of_mem hc hk (by decide))).suited_of_mem hk (by decide))
  | modifierList hk =>
    exact List.forall_mem_singleton.mpr
      ((loose_modifierList hc).suited_of_mem (List.mem_singleton.mpr hk) (by decide))
  | annotated hk =>
    exact List.forall_mem_singleton.mpr ((loose_annotated hc).suited_of_mem hk (by decide))
  | group kind hkind =>
    have htable : ∀ q ∈ [(Kind.block, Syntax.Kind.slist), (.constructorBody, .slist),
        (.expressionStatement, .expr), (.argumentList, .elist), (.arrayInitializer, .arrayInit),
        (.explicitConstructorInvocation, .methodCall)],
        q.1.listsParameters = false ∧ isOpen q.2 = true ∧ q.2 ≠ .parameterDef ∧
          q.1.mayBecome q.2 = true := by decide
    obtain ⟨hlists, hopen, hne, hmay⟩ := htable _ hkind
    refine List.forall_mem_singleton.mpr ⟨(loose_nest ⟨hc, hlists⟩ hopen hne).housed, ?_⟩
    rintro s rfl
    exact hmay
  | parentheses hk =>
    have hk := List.mem_singleton.mpr hk
    intro p hp
    exact (loose_named (hosts_of_mem hc hk (by decide)) p hp).suited_of_mem hk (by decide)
  | assignment hk =>
    have hk := List.mem_singleton.mpr hk
    exact List.forall_mem_singleton.mpr
      ((loose_assignment (hosts_of_mem hc hk (by decide))).suited_of_mem hk (by decide))
  | chain hk =>
    have hk := List.mem_singleton.mpr hk
    exact List.forall_mem_singleton.mpr
      ((loose_chain (hosts_of_mem hc hk (by decide))).suited_of_mem hk (by decide))
  | operator hk =>
    have hnamed := loose_named (hosts_of_mem hc hk (by decide))
    have hloose : (Plan.operator c).Loose := loose_node rfl (by decide) hnamed
    exact List.forall_mem_singleton.mpr (hloose.suited_of_mem hk (by decide))
  | fieldAccess hk =>
    have hk := List.mem_singleton.mpr hk
    exact List.forall_mem_singleton.mpr
      ((loose_fieldAccess (hosts_of_mem hc hk (by decide))).suited_of_mem hk (by decide))
  | methodCall hk =>
    have hk := List.mem_singleton.mpr hk
    exact List.forall_mem_singleton.mpr
      ((loose_methodCall (hosts_of_mem hc hk (by decide))).suited_of_mem hk (by decide))
  | arrayAccess hk =>
    have hk := List.mem_singleton.mpr hk
    exact List.forall_mem_singleton.mpr
      ((loose_arrayAccess (hosts_of_mem hc hk (by decide))).suited_of_mem hk (by decide))
  | creation hk =>
    exact List.forall_mem_singleton.mpr
      ((loose_creation (hosts_of_mem hc hk (by decide))).suited_of_mem hk (by decide))
  | self kind hkind =>
    have htable : ∀ q ∈ [(Kind.this, Syntax.Kind.literalThis), (.super, .literalSuper)],
        (q.2 ≠ .parameterDef ∧ q.2 ≠ .parameters) ∧ q.1.isComment = false ∧
          q.1.isBodyPart = false := by decide
    obtain ⟨hne, hk⟩ := htable _ hkind
    exact List.forall_mem_singleton.mpr ((loose_leaf hne).suited hk)
  | word hk =>
    have hloose : (ident c.text c.line).Loose := loose_token (by decide)
    exact List.forall_mem_singleton.mpr (hloose.suited_of_mem hk (by decide))
  | dotted hk =>
    exact List.forall_mem_singleton.mpr
      ((loose_qualified _ _).suited_of_mem (List.mem_singleton.mpr hk) (by decide))
  | type hk =>
    exact List.forall_mem_singleton.mpr ((loose_typeRef _ _).suited_of_mem hk (by decide))
  | other hk =>
    have htable : ∀ k : Kind, k ∉ formed → k.mayBecome .other = true := by
      intro k
      cases k <;> decide
    refine List.forall_mem_singleton.mpr ⟨(loose_nest_other hc).housed, ?_⟩
    rintro s rfl
    exact htable c.kind hk

/-- What lowering promises about where the terms of a node may stand. -/
def Placed (c : Cst) (T : Term) : Prop :=
  T.Arranged ∧ c.kind.mayBecome T.kind = true

section Filling

variable {R : Cst → List Term → Prop}

mutual

theorem Housed.arranged (hR : ∀ c us, c.conforms = true → R c us → ∀ T ∈ us, Placed c T) :
    ∀ {p : Plan} {ts : List Term}, p.Housed → Filled R p ts →
      ∀ T ∈ ts, T.Arranged ∧ p.Shows T.kind
  | .node kind text line parts, ts, hp, h => by
    obtain ⟨us, hus, rfl⟩ := h
    rw [List.forall_mem_singleton]
    obtain ⟨hkinds, hclause, hparts⟩ := hp
    refine ⟨Term.arranged_node (fun T hT => ?_) (fun T hT => ?_) fun hk T hT => ?_, rfl⟩
    · obtain ⟨q, hq, hT⟩ := HousedAll.arranged hR hparts hus T hT
      exact hT.1
    · obtain ⟨q, hq, hT⟩ := HousedAll.arranged hR hparts hus T hT
      exact hkinds q hq _ hT.2
    · obtain ⟨q, hq, vs, hvs, hT⟩ := hus.exists_of_mem hT
      obtain ⟨name, line', rfl⟩ := hclause hk q hq
      rw [show vs = [Term.qualified name line'] from hvs, List.mem_singleton] at hT
      exact ⟨name, line', hT⟩
  | .done U, ts, hp, h => by
    rw [show ts = [U] from h, List.forall_mem_singleton]
    exact ⟨hp, rfl⟩
  | .hole c, ts, hp, h => hR c ts hp h

theorem HousedAll.arranged (hR : ∀ c us, c.conforms = true → R c us → ∀ T ∈ us, Placed c T) :
    ∀ {ps : List Plan} {ts : List Term}, HousedAll ps → FilledAll R ps ts →
      ∀ T ∈ ts, ∃ p ∈ ps, T.Arranged ∧ p.Shows T.kind
  | [], ts, _, h => by
    rw [show ts = [] from h]
    exact List.forall_mem_nil _
  | p :: ps, ts, hps, h => by
    obtain ⟨us, vs, hp, hvs, rfl⟩ := h
    rw [List.forall_mem_append]
    constructor
    · exact fun T hT => ⟨p, List.mem_cons_self, Housed.arranged hR hps.1 hp T hT⟩
    · intro T hT
      obtain ⟨q, hq, hT⟩ := HousedAll.arranged hR hps.2 hvs T hT
      exact ⟨q, List.mem_cons_of_mem p hq, hT⟩

end

end Filling

end Plan

/-- Whatever a conforming node is lowered to may stand where the node does. -/
theorem Cst.placed_of_lower {depth : Nat} {c : Cst} {ts : List Term} (hc : c.conforms = true)
    (h : c.lower depth = .ok ts) : ∀ T ∈ ts, Plan.Placed c T := by
  induction depth generalizing c ts with
  | zero => cases h
  | succ depth ih =>
    rw [lower] at h
    have hsuited := (Plan.form_ofCst c).suited hc
    intro T hT
    obtain ⟨p, hp, harranged, hshows⟩ := Plan.HousedAll.arranged (fun d us hd hus => ih hd hus)
      (Plan.housedAll_iff.mpr fun p hp => (hsuited p hp).housed) (Plan.filledAll_of_fillAll h) T hT
    exact ⟨harranged, (hsuited p hp).shows _ hshows⟩

theorem Cst.arranged_of_toTerm {program : Cst} {T : Term} (hc : program.conforms = true)
    (hk : program.kind = .program) (h : program.toTerm = .ok T) : T.Arranged := by
  rw [toTerm] at h
  split at h
  · next ts hts =>
    cases h
    have hhosts : program.Hosts := ⟨hc, by rw [hk]; rfl⟩
    have hhoused : (Plan.node .compilationUnit none 1 (Plan.holes program.named)).Housed :=
      Plan.housed_node rfl (Plan.loose_named hhosts)
    refine (hhoused.arranged (R := fun d us => d.lower maxDepth = .ok us)
      (fun d us hd hus => placed_of_lower hd hus) ⟨ts, Plan.filledAll_of_fillAll hts, rfl⟩ _
      (List.mem_singleton_self _)).1
  · cases h

theorem Parser.kind_of_file {limit : Nat} {ls ls' : List Lexeme} {tree : Cst}
    (h : file limit ls = .ok (tree, ls')) : tree.kind = .program := by
  simp only [file, bind, StateT.bind, Except.bind, peek] at h
  split at h
  · cases h
  · cases h
    rfl

theorem Parser.kind_parse (source : String) : (Parser.parse source).kind = .program := by
  obtain ⟨line, hfaulty⟩ | ⟨-, rest, hfile⟩ := faulty_or_conforms source
  · rw [hfaulty]
    rfl
  · exact kind_of_file hfile

theorem exists_arranged_of_parse {source : String} {t : Tree} (h : parse source = .ok t) :
    ∃ T : Term, T.Arranged ∧ t.IsLayout T ∧ t.Finished := by
  obtain ⟨T, hc, hT, rfl⟩ := exists_term_of_parse h
  exact ⟨T, Cst.arranged_of_toTerm hc (Parser.kind_parse source) hT, Tree.isLayout_tree T, T.steps,
    Tree.ofSteps_of_wellShaped T.word_steps (Cst.sound_of_toTerm hc hT).1.shaped⟩

end ArchLint.Java
