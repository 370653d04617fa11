import ArchLint.Proofs.Query.Resolution
import ArchLint.Proofs.Syntax.Soundness

/-!
# The definitions in a tree

What the variables and parameters of a tree declare, in pre-order, and the same of the term that
the tree lays out.
-/

namespace ArchLint.Syntax

namespace Term

def definition? : Term → Option (Kind × String)
  | .node kind _ _ (_ :: _ :: name :: _) =>
    if kind.isDeclaration then name.text.map (kind, ·) else none
  | _ => none

def bindingsAll (Ts : List Term) : List (Kind × String) :=
  (subtermsAll Ts).filterMap definition?

theorem subtermsAll_append (Ts Us : List Term) :
    subtermsAll (Ts ++ Us) = subtermsAll Ts ++ subtermsAll Us := by
  induction Ts with
  | nil => rfl
  | cons T Ts ih => simp [subtermsAll, ih]

theorem bindingsAll_append (Ts Us : List Term) :
    bindingsAll (Ts ++ Us) = bindingsAll Ts ++ bindingsAll Us := by
  rw [bindingsAll, subtermsAll_append, List.filterMap_append]
  rfl

theorem bindingsAll_node (kind : Kind) (text : Option String) (line : Nat)
    (children : List Term) :
    bindingsAll [node kind text line children] =
      (definition? (node kind text line children)).toList ++ bindingsAll children := by
  rw [bindingsAll, subtermsAll, subterms, subtermsAll, List.append_nil, List.filterMap_cons]
  cases definition? (node kind text line children) <;> rfl

theorem definition?_of_not_isDeclaration {kind : Kind} (hkind : kind.isDeclaration = false)
    (text : Option String) (line : Nat) (children : List Term) :
    definition? (node kind text line children) = none := by
  rw [definition?.eq_def]
  split
  · next h =>
    cases h
    rw [hkind]
    rfl
  · rfl

theorem bindingsAll_childless (kind : Kind) (text : Option String) (line : Nat) :
    bindingsAll [node kind text line []] = [] := by
  rw [bindingsAll_node]
  rfl

theorem bindingsAll_segment (name : List Char) (line : Nat) :
    bindingsAll [segment name line] = [] := by
  rcases segment_eq name line with ⟨-, h⟩ | ⟨-, h⟩
  · rw [h]
    exact bindingsAll_childless _ _ _
  · rw [h]
    exact bindingsAll_childless _ _ _

theorem bindingsAll_qualified (name : String) (line : Nat) :
    bindingsAll [qualified name line] = [] := by
  have hfold : ∀ (rest : List (List Char)) (inner : Term), bindingsAll [inner] = [] →
      bindingsAll [rest.foldl (fun inner s => node .dot none line [inner, segment s line]) inner] =
        [] := by
    intro rest
    induction rest with
    | nil => exact fun _ h => h
    | cons s rest ih =>
      intro inner h
      refine ih _ ?_
      rw [bindingsAll_node, ← List.singleton_append, bindingsAll_append, h, bindingsAll_segment]
      rfl
  rw [qualified]
  split
  · exact bindingsAll_childless _ _ _
  · next first rest _ => exact hfold rest _ (bindingsAll_segment first line)

end Term

namespace Tree

/-- The variables and parameters of a tree with the names that they declare, in pre-order. -/
def definitions (t : Tree) : List (Kind × Except QueryError String) :=
  ((root :: t.descendants root).filter fun d => (t.kind d).isDeclaration).map
    fun d => (t.kind d, t.declaredName d)

theorem Finished.definition? {t : Tree} (ht : t.Finished) {q : Option Nat} {n : Nat} {U : Term}
    (h : Holds t q n U) :
    (if (t.kind n).isDeclaration then some (t.kind n, t.declaredName n) else none) =
      U.definition?.map fun b => (b.1, .ok b.2) := by
  obtain ⟨kind, text, line, children⟩ := U
  have hkind : t.kind n = kind := h.kind
  rw [hkind]
  split
  · next hdeclaration =>
    have hk : t.kind n = .variableDef ∨ t.kind n = .parameterDef := by
      rw [hkind]
      cases kind with
      | variableDef => exact .inl rfl
      | parameterDef => exact .inr rfl
      | _ => cases hdeclaration
    obtain ⟨m, type, i, rest, name, hc, -, -, -, hname⟩ := ht.definition_children hk
    obtain ⟨declared, hdeclared, hunique⟩ := ht.exists_declaredName hk
    obtain rfl : name = declared := (hunique name).mp ⟨m, type, i, rest, hc, hname⟩
    have hlabels := h.below.labels
    rw [← h.children, hc] at hlabels
    -- the third child carries the name in the tree and in the term
    rcases children with _ | ⟨M, _ | ⟨Y, _ | ⟨N, Ns⟩⟩⟩
    · simp [Term.children] at hlabels
    · simp [Term.children] at hlabels
    · simp [Term.children] at hlabels
    · have htext : N.text = some name := by
        simp only [Term.children, List.map_cons, List.cons.injEq, Prod.mk.injEq] at hlabels
        rw [← hlabels.2.2.1.2, hname]
      simp [Term.definition?, hdeclaration, htext, hdeclared]
  · next hdeclaration =>
    rw [Term.definition?_of_not_isDeclaration (Bool.eq_false_iff.mpr hdeclaration)]
    rfl

/-- The definitions of a tree are those of the term that it lays out. -/
theorem definitions_tree {T : Term} (hT : T.WellShaped) :
    T.tree.definitions = (Term.bindingsAll [T]).map fun b => (b.1, .ok b.2) := by
  have hfinished : T.tree.Finished := ⟨T.steps, ofSteps_of_wellShaped T.word_steps hT⟩
  have hmap := (holds_tree T).map_preorder fun q n U hU => hfinished.definition? hU
  have hsome := congrArg (List.filterMap id) hmap
  rw [List.filterMap_map, List.filterMap_map] at hsome
  rw [definitions, hfinished.preorder, size_tree, List.range_eq_range', ← List.filterMap_eq_map,
    List.filterMap_filter]
  rw [Term.bindingsAll, Term.subtermsAll, Term.subtermsAll, List.append_nil, List.map_filterMap]
  exact hsome

end Tree

end ArchLint.Syntax
