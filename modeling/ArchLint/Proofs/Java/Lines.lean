import ArchLint.Proofs.Java.Pending

/-!
# Lines of a concrete tree

The leaves of a tree carry the lines of the tokens and comments it was made of. Where every inner
node is aligned with its first child, these are all the lines there are.
-/

namespace ArchLint.Java.Cst

mutual

def lines : Cst → List Nat
  | .node _ _ line _ [] => [line]
  | .node _ _ _ _ (c :: cs) => lines c ++ linesAll cs

def linesAll : List Cst → List Nat
  | [] => []
  | c :: cs => lines c ++ linesAll cs

end

/-- Every node stands on the line of its first child, and what is assigned to comes first. -/
inductive Aligned : Cst → Prop where
  | node {kind : Kind} {field : Option Field} {line : Nat} {text : String} {children : List Cst} :
      (∀ c ∈ children.head?,
        c.line = line ∧ (kind = .assignmentExpression → c.field = some .left)) →
      (∀ c ∈ children, Aligned c) → Aligned (.node kind field line text children)

variable {c d : Cst}

theorem linesAll_eq (cs : List Cst) : linesAll cs = cs.flatMap lines := by
  induction cs with
  | nil => rfl
  | cons c cs ih => rw [linesAll, ih, List.flatMap_cons]

theorem lines_node (kind : Kind) (field : Option Field) (line : Nat) (text : String) (c : Cst)
    (cs : List Cst) :
    (node kind field line text (c :: cs)).lines = lines c ++ cs.flatMap lines := by
  rw [lines, linesAll_eq]

@[simp] theorem lines_leaf (kind : Kind) (field : Option Field) (line : Nat) (text : String) :
    (node kind field line text []).lines = [line] := by
  rw [lines]

theorem Aligned.child (h : c.Aligned) (hd : d ∈ c.children) : d.Aligned := by
  cases h with
  | node _ hchildren => exact hchildren d hd

theorem lines_sublist_of_mem_children (hd : d ∈ c.children) : d.lines.Sublist c.lines := by
  obtain ⟨kind, field, line, text, children⟩ := c
  cases children with
  | nil => cases hd
  | cons e es =>
    rw [lines_node, ← List.flatMap_cons]
    exact List.sublist_flatten_of_mem (List.mem_map_of_mem hd)

/-- An aligned tree has the line of its first leaf. -/
theorem Aligned.head?_lines (h : c.Aligned) : c.lines.head? = some c.line := by
  induction h with
  | @node kind field line text children hfirst _ ih =>
    cases children with
    | nil => rfl
    | cons e es =>
      obtain ⟨hline, -⟩ := hfirst e rfl
      rw [lines_node, List.head?_append, ih e List.mem_cons_self, hline]
      rfl

theorem Aligned.line_mem (h : c.Aligned) : c.line ∈ c.lines :=
  List.mem_of_head? h.head?_lines

end ArchLint.Java.Cst
