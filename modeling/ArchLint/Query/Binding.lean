import ArchLint.Query.Declaration

/-!
# Bindings

The definition that a use of an identifier refers to. Only definitions inside the nearest class
count, and none that stands on a later line than the use.

* `this.x` refers to the first field of the class with that name.
* Any other use refers to the latest parameter of its own scope, and failing that to the latest
  variable of its own scope or of the class.
-/

namespace ArchLint.Syntax.Tree

def candidates (t : Tree) (cls : Nat) (kind : Kind) (name : String) (line : Nat) :
    Except QueryError (List Nat) :=
  (t.findAll kind cls).filterM fun d =>
    if t.line d ≤ line then return decide ((← t.declaredName d) = name) else return false

/-- The definition on the greatest line; among those on one line the last. -/
def latest (t : Tree) (defs : List Nat) : Option Nat :=
  defs.foldl (fun best d =>
    match best with
    | some b => if t.line d < t.line b then some b else some d
    | none => some d) none

def isThisMember (t : Tree) (i : Nat) : Bool :=
  (t.parent i).any (fun p => t.kind p = .dot) &&
    (t.prevSibling i).any fun s => t.kind s = .literalThis

/-- The definition that the identifier `i` refers to. -/
def resolveDeclaration (t : Tree) (i : Nat) : Except QueryError (Option Nat) := do
  Query.resolveDeclaration.check t i
  match t.text i, t.enclosingClass i with
  | some name, some cls =>
    let found ← t.candidates cls .variableDef name (t.line i)
    if t.isThisMember i then
      return found.find? fun d => t.enclosingScope d = some cls
    else
      let scope := t.enclosingScope i
      let visible := found.filter fun d =>
        t.enclosingScope d = scope || t.enclosingScope d = some cls
      let parameters ← t.candidates cls .parameterDef name (t.line i)
      let own := parameters.filter fun d => t.enclosingScope d = scope
      return (t.latest own).or (t.latest visible)
  | _, _ => return none

end ArchLint.Syntax.Tree
