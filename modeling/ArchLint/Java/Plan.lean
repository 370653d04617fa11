import ArchLint.Java.Concrete
import ArchLint.Syntax.Term

/-!
# Plans

One level of lowering turns a concrete node into a plan: terms with holes where concrete nodes
are still to be lowered.
-/

namespace ArchLint.Java

open Syntax (Term)

inductive Plan where
  | node (kind : Syntax.Kind) (text : Option String) (line : Nat) (parts : List Plan)
  | done (term : Term)
  | hole (c : Cst)
  deriving Inhabited

namespace Plan

def leaf (kind : Syntax.Kind) (line : Nat) : Plan :=
  .done (.leaf kind line)

def token (kind : Syntax.Kind) (text : String) (line : Nat) : Plan :=
  .done (.token kind text line)

def ident (name : String) (line : Nat) : Plan :=
  token .ident name line

def qualified (name : String) (line : Nat) : Plan :=
  .done (.qualified name line)

def holes (cs : List Cst) : List Plan :=
  cs.map hole

mutual

/-- Fills the holes of a plan from left to right. -/
def fill (lower : Cst → Except ε (List Term)) : Plan → Except ε (List Term)
  | .node kind text line parts =>
    match fillAll lower parts with
    | .ok terms => .ok [.node kind text line terms]
    | .error e => .error e
  | .done term => .ok [term]
  | .hole c => lower c

def fillAll (lower : Cst → Except ε (List Term)) : List Plan → Except ε (List Term)
  | [] => .ok []
  | p :: ps =>
    match fill lower p with
    | .error e => .error e
    | .ok terms =>
      match fillAll lower ps with
      | .ok more => .ok (terms ++ more)
      | .error e => .error e

end

end Plan

end ArchLint.Java
