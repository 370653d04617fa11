import ArchLint.Syntax.Tree
import ArchLint.Text.Quoted

/-!
# Outlines

A tree as an indented outline, one node a line, and single nodes in one line.
-/

namespace ArchLint.Syntax.Tree

/-- The nodes from `i` down in pre-order, each with its depth, in front of `rest`. -/
def outlineOnto (t : Tree) (i : Nat) (depth : Nat) (rest : List (Nat × Nat)) :
    List (Nat × Nat) :=
  (i, depth) :: (t.children i).foldr
    (fun c rest => if i < c ∧ c < t.size then outlineOnto t c (depth + 1) rest else rest) rest
termination_by t.size - i
decreasing_by omega

def outline (t : Tree) : List (Nat × Nat) :=
  t.outlineOnto root 0 []

def dumpLine (t : Tree) (i : Nat) (depth : Nat) : String :=
  String.ofList (List.replicate (2 * depth) ' ') ++ (t.kind i).tag ++ " @" ++ toString (t.line i) ++
    (match t.text i with
    | some text => " `" ++ text ++ "`"
    | none => "") ++ "\n"

def dump (t : Tree) : String :=
  String.join (t.outline.map fun (i, depth) => t.dumpLine i depth)

def describe (t : Tree) (i : Nat) : String :=
  "Node \x7b id: " ++ toString i ++ ", kind: " ++ (t.kind i).label ++ ", text: " ++
    (match t.text i with
    | some text => "Some(" ++ Text.quote text ++ ")"
    | none => "None") ++
    ", line: " ++ toString (t.line i) ++ " \x7d"

end ArchLint.Syntax.Tree
