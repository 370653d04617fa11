import ArchLint.Proofs.Java.Filling

/-!
# What a plan leaves to be lowered

All of it lies inside the node that the plan is for, so lowering comes to an end.
-/

namespace ArchLint.Java

open Syntax (Term)

namespace Cst

/-- Some children further down in `c` lies `d`. -/
inductive Inside (c : Cst) : Cst → Prop where
  | child {d : Cst} : d ∈ c.children → Inside c d
  | deeper {d e : Cst} : Inside c e → d ∈ e.children → Inside c d

variable {c d e : Cst} {f : Field}

theorem weight_lt_of_mem_children (h : d ∈ c.children) : d.weight < c.weight := by
  have hle := weight_le_of_mem h
  rw [c.weight_eq]
  omega

theorem Inside.weight_lt (h : c.Inside d) : d.weight < c.weight := by
  induction h with
  | child h => exact weight_lt_of_mem_children h
  | deeper _ h ih => exact Nat.lt_trans (weight_lt_of_mem_children h) ih

theorem Inside.trans (h : c.Inside d) (h' : d.Inside e) : c.Inside e := by
  induction h' with
  | child h' => exact .deeper h h'
  | deeper _ h' ih => exact .deeper ih h'

theorem inside_of_named (h : d ∈ c.named) : c.Inside d :=
  .child (List.mem_filter.mp h).1

theorem inside_of_get? (h : c.get? f = some d) : c.Inside d :=
  .child (List.mem_of_find?_eq_some h)

end Cst

namespace Plan

mutual

/-- The concrete nodes that a plan leaves to be lowered, from left to right. -/
def pending : Plan → List Cst
  | .node _ _ _ parts => pendingAll parts
  | .done _ => []
  | .hole c => [c]

def pendingAll : List Plan → List Cst
  | [] => []
  | p :: ps => pending p ++ pendingAll ps

end

def Leaves (P : Cst → Prop) (p : Plan) : Prop :=
  ∀ d ∈ p.pending, P d

variable {P Q : Cst → Prop} {p : Plan} {ps : List Plan} {c d : Cst}

theorem pendingAll_eq (ps : List Plan) : pendingAll ps = ps.flatMap pending := by
  induction ps with
  | nil => rfl
  | cons p ps ih => rw [pendingAll, ih, List.flatMap_cons]

theorem pendingAll_holes (cs : List Cst) : pendingAll (holes cs) = cs := by
  induction cs with
  | nil => rfl
  | cons c cs ih => exact congrArg (c :: ·) ih

theorem pendingAll_singleton (p : Plan) : pendingAll [p] = p.pending :=
  List.append_nil _

theorem mem_pendingAll_append {qs : List Plan} (h : d ∈ pendingAll qs) :
    d ∈ pendingAll (ps ++ qs) := by
  rw [pendingAll_eq, List.flatMap_append, ← pendingAll_eq qs]
  exact List.mem_append_right _ h

theorem forall_mem_pendingAll :
    (∀ d ∈ pendingAll ps, P d) ↔ ∀ p ∈ ps, p.Leaves P := by
  rw [pendingAll_eq, List.forall_mem_flatMap]
  rfl

theorem Leaves.imp (h : p.Leaves P) (hPQ : ∀ d, P d → Q d) : p.Leaves Q :=
  fun d hd => hPQ d (h d hd)

theorem leaves_node (kind : Syntax.Kind) (text : Option String) (line : Nat)
    (h : ∀ p ∈ ps, p.Leaves P) : (node kind text line ps).Leaves P :=
  forall_mem_pendingAll.mpr h

theorem leaves_done (T : Term) : (done T).Leaves P :=
  List.forall_mem_nil _

theorem leaves_hole (h : P c) : (hole c).Leaves P :=
  List.forall_mem_singleton.mpr h

theorem leaves_holes {cs : List Cst} (h : ∀ c ∈ cs, P c) : ∀ p ∈ holes cs, p.Leaves P := by
  rw [holes, List.forall_mem_map]
  exact fun c hc => leaves_hole (h c hc)

theorem leaves_expr (h : P c) : (expr c).Leaves P :=
  leaves_node _ _ _ (List.forall_mem_singleton.mpr (leaves_hole h))

theorem leaves_nameOf (name : Option Cst) (line : Nat) : (nameOf name line).Leaves P := by
  cases name with
  | none => exact leaves_done _
  | some name => exact leaves_done _

theorem leaves_typeRef (type : Option Cst) (line : Nat) : (typeRef type line).Leaves P := by
  cases type with
  | none => exact leaves_done _
  | some type =>
    refine leaves_node _ _ _ (List.forall_mem_cons.mpr ⟨leaves_done _, ?_⟩)
    split
    · exact List.forall_mem_singleton.mpr (leaves_done _)
    · exact List.forall_mem_nil _

theorem leaves_nest (kind : Syntax.Kind) (c : Cst) : (nest kind c).Leaves c.Inside :=
  leaves_node _ _ _ (leaves_holes fun _ => Cst.inside_of_named)

theorem leaves_toList {o : Option Cst} {f : Cst → Plan} (h : ∀ d, o = some d → (f d).Leaves P) :
    ∀ p ∈ (o.map f).toList, p.Leaves P := by
  cases o with
  | none => exact List.forall_mem_nil _
  | some d => exact List.forall_mem_singleton.mpr (h d rfl)

theorem leaves_role (c : Cst) (f : Field) : ∀ p ∈ holes (c.get? f).toList, p.Leaves c.Inside :=
  leaves_holes fun _ hd => Cst.inside_of_get? (Option.mem_toList.mp hd)

theorem leaves_annotationArgument (hc : P c) (hin : ∀ d, c.Inside d → P d) :
    (annotationArgument c).Leaves P := by
  rw [annotationArgument]
  split
  · refine leaves_node _ _ _ (List.forall_mem_append.mpr ⟨?_, ?_⟩)
    · exact List.forall_mem_cons.mpr
        ⟨leaves_nameOf _ _, List.forall_mem_singleton.mpr (leaves_done _)⟩
    · exact leaves_toList fun d hd => leaves_expr (hin d (Cst.inside_of_get? hd))
  · exact leaves_expr hc

theorem leaves_annotated (c : Cst) : (annotated c).Leaves c.Inside := by
  refine leaves_node _ _ _ (List.forall_mem_append.mpr ⟨?_, ?_⟩)
  · exact leaves_toList fun d _ => leaves_done _
  · split
    · next arguments hget =>
      rw [List.forall_mem_map]
      intro e he
      have hin : c.Inside e :=
        (Cst.inside_of_get? hget).trans (Cst.inside_of_named (List.mem_filter.mp he).1)
      exact leaves_annotationArgument hin fun d => hin.trans
    · exact List.forall_mem_nil _

theorem leaves_modifierList (c : Cst) : (modifierList c).Leaves c.Inside := by
  refine leaves_node _ _ _ fun p hp => ?_
  obtain ⟨d, hd, hp⟩ := List.mem_filterMap.mp hp
  rw [modifier] at hp
  split at hp
  · cases hp
    exact (leaves_annotated d).imp fun e => (Cst.Inside.child hd).trans
  · split at hp
    · cases hp
    · cases hp
      exact leaves_done _

theorem leaves_modifiers (c : Cst) : (modifiers c).Leaves c.Inside := by
  rw [modifiers]
  split
  · next list hlist =>
    have hin := Cst.inside_of_named (List.mem_of_find?_eq_some hlist)
    exact (leaves_modifierList list).imp fun e => hin.trans
  · exact leaves_done _

theorem leaves_naming (kind : Syntax.Kind) (name : String) (line line' : Nat) :
    (node kind none line [qualified name line']).Leaves P :=
  leaves_node _ _ _ (List.forall_mem_singleton.mpr (leaves_done _))

theorem leaves_initializer (declarator : Cst) (h : P c) : (initializer declarator c).Leaves P := by
  refine leaves_node _ _ _ (List.forall_mem_singleton.mpr ?_)
  split
  · exact leaves_hole h
  · exact leaves_expr h

theorem leaves_arrayMark (c : Cst) (line : Nat) : ∀ p ∈ arrayMark c line, p.Leaves P := by
  rw [arrayMark]
  split
  · exact List.forall_mem_singleton.mpr (leaves_done _)
  · exact List.forall_mem_nil _

theorem leaves_definition (kind : Syntax.Kind) (line line' : Nat) (type name : Option Cst)
    (hc : ∀ d, c.Inside d → P d) (hps : ∀ p ∈ ps, p.Leaves P) :
    (node kind none line
      (modifiers c :: typeRef type line :: nameOf name line' :: ps)).Leaves P := by
  refine leaves_node _ _ _ ?_
  simp only [List.forall_mem_cons]
  exact ⟨(leaves_modifiers c).imp hc, leaves_typeRef _ _, leaves_nameOf _ _, hps⟩

theorem leaves_variable (hd : d ∈ c.children) : (variable_ c d).Leaves c.Inside := by
  refine leaves_definition _ _ _ _ _ (fun _ h => h) (List.forall_mem_append.mpr ⟨?_, ?_⟩)
  · exact leaves_arrayMark _ _
  · exact leaves_toList fun value hvalue => leaves_initializer d
      ((Cst.Inside.child hd).trans (Cst.inside_of_get? hvalue))

theorem leaves_variableDefs (c : Cst) : ∀ p ∈ variableDefs c, p.Leaves c.Inside := by
  rw [variableDefs, List.forall_mem_map]
  exact fun d hd => leaves_variable (List.mem_filter.mp hd).1

theorem leaves_component (c : Cst) : (component c).Leaves c.Inside :=
  leaves_definition _ _ _ _ _ (fun _ h => h) (leaves_arrayMark _ _)

theorem leaves_parameter (c : Cst) : (parameter c).Leaves c.Inside :=
  leaves_definition _ _ _ _ _ (fun _ h => h) (List.forall_mem_nil _)

theorem leaves_inferredParameter (c : Cst) : (inferredParameter c).Leaves P := by
  refine leaves_node _ _ _ ?_
  simp only [List.forall_mem_cons]
  exact ⟨leaves_done _, leaves_done _, leaves_nameOf _ _, List.forall_mem_nil _⟩

theorem leaves_parameters {list : Option Cst} (line : Nat)
    (h : ∀ l, list = some l → ∀ d, l.Inside d → P d) : (parameters list line).Leaves P := by
  cases list with
  | none => exact leaves_done _
  | some list =>
    refine leaves_node _ _ _ ?_
    rw [List.forall_mem_map]
    intro d hd
    have hin := Cst.inside_of_named (List.mem_filter.mp hd).1
    exact (leaves_parameter d).imp fun e he => h list rfl e (hin.trans he)

theorem leaves_resource (c : Cst) : (resource c).Leaves c.Inside := by
  rw [resource]
  split
  · exact leaves_nest _ _
  · exact leaves_definition _ _ _ _ _ (fun _ h => h) (leaves_toList fun value hvalue =>
      leaves_initializer c (Cst.inside_of_get? hvalue))

theorem leaves_clauses (cs : List Cst) : ∀ p ∈ cs.filterMap clause?, p.Leaves P := by
  have hclause (kind : Syntax.Kind) (d : Cst) : (clause kind d).Leaves P := by
    refine leaves_node _ _ _ ?_
    rw [List.forall_mem_map]
    exact fun type _ => leaves_done _
  intro p hp
  obtain ⟨d, -, hd⟩ := List.mem_filterMap.mp hp
  rw [clause?] at hd
  split at hd <;> cases hd <;> exact hclause _ _

theorem leaves_body {components : Option Cst} (hc : ∀ d, c.Inside d → P d)
    (h : ∀ l, components = some l → ∀ d, l.Inside d → P d) : (body c components).Leaves P := by
  refine leaves_node _ _ _ (List.forall_mem_append.mpr ⟨?_, ?_⟩)
  · cases components with
    | none => exact List.forall_mem_nil _
    | some list =>
      simp only [List.forall_mem_map]
      intro d hd
      have hin := Cst.inside_of_named (List.mem_filter.mp hd).1
      exact (leaves_component d).imp fun e he => h list rfl e (hin.trans he)
  · rw [List.forall_mem_flatMap]
    intro d hd
    have hin := Cst.inside_of_named hd
    rw [member]
    split
    · exact leaves_holes fun e he => hc e (hin.trans (Cst.inside_of_named he))
    · exact List.forall_mem_singleton.mpr (leaves_hole (hc d hin))

theorem leaves_typeDeclaration (kind : Syntax.Kind) (c : Cst) :
    (typeDeclaration kind c).Leaves c.Inside := by
  refine leaves_node _ _ _ ?_
  rw [List.forall_mem_append, List.forall_mem_append, List.forall_mem_cons,
    List.forall_mem_singleton, List.forall_mem_singleton]
  refine ⟨⟨⟨leaves_modifiers c, leaves_nameOf _ _⟩, leaves_clauses _⟩, ?_⟩
  split
  · next b hb =>
    refine leaves_body (fun d => (Cst.inside_of_get? hb).trans) fun l hl => ?_
    split at hl
    · exact fun d => (Cst.inside_of_get? hl).trans
    · cases hl
  · exact leaves_done _

theorem leaves_parameters_role (c : Cst) (line : Nat) :
    (parameters (c.get? .parameters) line).Leaves c.Inside :=
  leaves_parameters line fun _ hl _ => (Cst.inside_of_get? hl).trans

theorem leaves_method (c : Cst) : (method c).Leaves c.Inside := by
  refine leaves_node _ _ _ (List.forall_mem_append.mpr ⟨?_, leaves_role c .body⟩)
  simp only [List.forall_mem_cons]
  exact ⟨leaves_modifiers c, leaves_typeRef _ _, leaves_nameOf _ _, leaves_parameters_role _ _,
    List.forall_mem_nil _⟩

theorem leaves_constructor (c : Cst) : (constructor_ c).Leaves c.Inside := by
  refine leaves_node _ _ _ (List.forall_mem_append.mpr ⟨?_, leaves_role c .body⟩)
  simp only [List.forall_mem_cons]
  exact ⟨leaves_modifiers c, leaves_nameOf _ _, leaves_parameters_role _ _, List.forall_mem_nil _⟩

theorem leaves_forEach (c : Cst) : (forEach c).Leaves c.Inside := by
  refine leaves_node _ _ _ ?_
  rw [List.forall_mem_append, List.forall_mem_append, List.forall_mem_singleton]
  refine ⟨⟨?_, ?_⟩, leaves_role c .body⟩
  · exact leaves_definition _ _ _ _ _ (fun _ h => h) (List.forall_mem_nil _)
  · exact leaves_toList fun value hvalue => leaves_expr (Cst.inside_of_get? hvalue)

theorem leaves_lambdaParameters (c : Cst) : (lambdaParameters c).Leaves c.Inside := by
  rw [lambdaParameters]
  split
  · exact leaves_done _
  · next list hlist =>
    split
    · exact leaves_node _ _ _ (List.forall_mem_singleton.mpr (leaves_inferredParameter _))
    · refine leaves_node _ _ _ ?_
      rw [List.forall_mem_map]
      exact fun d _ => leaves_inferredParameter d
    · refine leaves_parameters _ fun l hl d => ?_
      cases hl
      exact (Cst.inside_of_get? hlist).trans

theorem leaves_lambda (c : Cst) : (lambda c).Leaves c.Inside := by
  refine leaves_node _ _ _ (List.forall_mem_cons.mpr ⟨leaves_lambdaParameters c, ?_⟩)
  split
  · exact List.forall_mem_nil _
  · next b hb =>
    rw [List.forall_mem_singleton]
    split
    · exact leaves_hole (Cst.inside_of_get? hb)
    · exact leaves_expr (Cst.inside_of_get? hb)

theorem leaves_assignment (c : Cst) : (assignment c).Leaves c.Inside := by
  have hparts := List.forall_mem_append.mpr ⟨leaves_role c .left, leaves_role c .right⟩
  rw [assignment]
  split
  · exact leaves_node _ _ _ hparts
  · exact leaves_node _ _ _ hparts

theorem leaves_operator (c : Cst) : (operator c).Leaves c.Inside :=
  leaves_node _ _ _ (leaves_holes fun _ => Cst.inside_of_named)

theorem leaves_chain (c : Cst) : (chain c).Leaves c.Inside := by
  refine chain_induction (motive := fun c p => p.Leaves c.Inside) ?_ ?_ c
  · intro c _
    exact leaves_operator c
  · intro c left inner hleft _ ih
    refine leaves_node _ _ _ (List.forall_mem_cons.mpr ⟨?_, ?_⟩)
    · exact ih.imp fun d => (Cst.inside_of_get? hleft).trans
    · exact leaves_holes fun d hd => Cst.inside_of_named (List.mem_filter.mp hd).1

theorem leaves_fieldAccess (c : Cst) : (fieldAccess c).Leaves c.Inside := by
  rw [fieldAccess]
  split
  · next object field hobject hfield =>
    refine leaves_node _ _ _ (List.forall_mem_cons.mpr ⟨?_, List.forall_mem_singleton.mpr ?_⟩)
    · exact leaves_hole (Cst.inside_of_get? hobject)
    · exact leaves_hole (Cst.inside_of_get? hfield)
  · exact leaves_nest _ _

theorem leaves_arrayAccess (c : Cst) : (arrayAccess c).Leaves c.Inside := by
  rw [arrayAccess]
  split
  · next array index harray hindex =>
    refine leaves_node _ _ _ (List.forall_mem_cons.mpr ⟨?_, List.forall_mem_singleton.mpr ?_⟩)
    · exact leaves_hole (Cst.inside_of_get? harray)
    · exact leaves_expr (Cst.inside_of_get? hindex)
  · exact leaves_nest _ _

theorem leaves_methodCall (c : Cst) : (methodCall c).Leaves c.Inside := by
  refine leaves_node _ _ _ (List.forall_mem_cons.mpr ⟨?_, List.forall_mem_singleton.mpr ?_⟩)
  · split
    · next object hobject =>
      split
      · refine leaves_node _ _ _ (List.forall_mem_cons.mpr ⟨?_, List.forall_mem_singleton.mpr ?_⟩)
        · exact leaves_hole (Cst.inside_of_get? hobject)
        · exact leaves_nameOf _ _
      · exact leaves_nameOf _ _
    · exact leaves_nameOf _ _
  · split
    · next list hlist => exact leaves_hole (Cst.inside_of_get? hlist)
    · exact leaves_done _

theorem leaves_creation (c : Cst) : (creation c).Leaves c.Inside := by
  refine leaves_node _ _ _ (List.forall_mem_cons.mpr ⟨leaves_typeRef _ _, ?_⟩)
  exact leaves_holes fun d hd => Cst.inside_of_named (List.mem_filter.mp hd).1

/-- Whatever is left to be lowered lies inside the node, one case for each form. -/
theorem Form.leaves {plans : List Plan} (h : Form c plans) : ∀ p ∈ plans, p.Leaves c.Inside := by
  cases h with
  | comment _ => exact List.forall_mem_nil _
  | literal _ => exact List.forall_mem_singleton.mpr (leaves_done _)
  | package _ =>
    rw [Plan.package]
    split
    · exact List.forall_mem_nil _
    · exact List.forall_mem_singleton.mpr (leaves_naming _ _ _ _)
  | import_ _ =>
    rw [Plan.import_]
    split
    · exact List.forall_mem_nil _
    · exact List.forall_mem_singleton.mpr (leaves_naming _ _ _ _)
  | typeDeclaration kind _ _ => exact List.forall_mem_singleton.mpr (leaves_typeDeclaration kind c)
  | body _ => exact List.forall_mem_singleton.mpr (leaves_body (fun _ h => h) nofun)
  | variableDefs _ => exact leaves_variableDefs c
  | method _ => exact List.forall_mem_singleton.mpr (leaves_method c)
  | constructor_ _ => exact List.forall_mem_singleton.mpr (leaves_constructor c)
  | parameter _ => exact List.forall_mem_singleton.mpr (leaves_parameter c)
  | resource _ => exact List.forall_mem_singleton.mpr (leaves_resource c)
  | forEach _ => exact List.forall_mem_singleton.mpr (leaves_forEach c)
  | lambda _ => exact List.forall_mem_singleton.mpr (leaves_lambda c)
  | modifierList _ => exact List.forall_mem_singleton.mpr (leaves_modifierList c)
  | annotated _ => exact List.forall_mem_singleton.mpr (leaves_annotated c)
  | group kind _ => exact List.forall_mem_singleton.mpr (leaves_nest kind c)
  | parentheses _ => exact leaves_holes fun _ => Cst.inside_of_named
  | assignment _ => exact List.forall_mem_singleton.mpr (leaves_assignment c)
  | chain _ => exact List.forall_mem_singleton.mpr (leaves_chain c)
  | operator _ => exact List.forall_mem_singleton.mpr (leaves_operator c)
  | fieldAccess _ => exact List.forall_mem_singleton.mpr (leaves_fieldAccess c)
  | methodCall _ => exact List.forall_mem_singleton.mpr (leaves_methodCall c)
  | arrayAccess _ => exact List.forall_mem_singleton.mpr (leaves_arrayAccess c)
  | creation _ => exact List.forall_mem_singleton.mpr (leaves_creation c)
  | self kind _ => exact List.forall_mem_singleton.mpr (leaves_done _)
  | word _ => exact List.forall_mem_singleton.mpr (leaves_done _)
  | dotted _ => exact List.forall_mem_singleton.mpr (leaves_done _)
  | type _ => exact List.forall_mem_singleton.mpr (leaves_typeRef _ _)
  | other _ => exact List.forall_mem_singleton.mpr (leaves_nest _ c)

theorem inside_of_pending (h : d ∈ pendingAll (ofCst c)) : c.Inside d :=
  forall_mem_pendingAll.mpr (form_ofCst c).leaves d h

end Plan

end ArchLint.Java
