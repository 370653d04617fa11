import ArchLint.Syntax.Kind

/-!
# Syntax trees

A tree is an arena: nodes are numbered in the order they were opened, which is pre-order, and
refer to each other by number. The root is node 0.
-/

namespace ArchLint.Syntax

structure Node where
  kind : Kind
  text : Option String
  line : Nat
  parent : Option Nat
  children : Array Nat := #[]
  deriving DecidableEq, Repr

instance : Inhabited Node := ⟨⟨.other, none, 0, none, #[]⟩⟩

structure Tree where
  nodes : Array Node
  deriving DecidableEq, Repr, Inhabited

namespace Tree

def root : Nat := 0

def size (t : Tree) : Nat := t.nodes.size

/-- The node with number `i`; numbers outside the tree give an isolated node. -/
def node (t : Tree) (i : Nat) : Node := t.nodes.getD i default

def kind (t : Tree) (i : Nat) : Kind := (t.node i).kind

def text (t : Tree) (i : Nat) : Option String := (t.node i).text

def line (t : Tree) (i : Nat) : Nat := (t.node i).line

def parent (t : Tree) (i : Nat) : Option Nat := (t.node i).parent

def children (t : Tree) (i : Nat) : List Nat := (t.node i).children.toList

def child (t : Tree) (i : Nat) (n : Nat) : Option Nat := (t.node i).children[n]?

def firstChild (t : Tree) (i : Nat) : Option Nat := t.child i 0

def findChild (t : Tree) (i : Nat) (k : Kind) : Option Nat :=
  (t.children i).find? fun c => t.kind c = k

/-- The parent of a node and the place of the node among its children. -/
def place (t : Tree) (i : Nat) : Option (Nat × Nat) :=
  match t.parent i with
  | none => none
  | some p => ((t.children p).findIdx? (· = i)).map (p, ·)

def prevSibling (t : Tree) (i : Nat) : Option Nat :=
  match t.place i with
  | some (p, n + 1) => t.child p n
  | _ => none

def nextSibling (t : Tree) (i : Nat) : Option Nat :=
  match t.place i with
  | some (p, n) => t.child p (n + 1)
  | none => none

def ancestors (t : Tree) (i : Nat) : List Nat :=
  match t.parent i with
  | none => []
  | some p => if p < i then p :: ancestors t p else []
termination_by i

def descendantsOnto (t : Tree) (i : Nat) (rest : List Nat) : List Nat :=
  (t.children i).foldr
    (fun c rest => if i < c ∧ c < t.size then c :: descendantsOnto t c rest else rest) rest
termination_by t.size - i
decreasing_by omega

/-- The nodes strictly below `i` in pre-order. -/
def descendants (t : Tree) (i : Nat) : List Nat :=
  t.descendantsOnto i []

/-- The identifier that a variable or parameter definition declares. -/
def declaredIdent (t : Tree) (i : Nat) : Option Nat :=
  if (t.kind i).isDeclaration then
    (t.child i 2).filter fun c => t.kind c = .ident
  else none

/-- Pre-order search that starts at `i` itself. -/
def findFirst (t : Tree) (k : Kind) (i : Nat) : Option Nat :=
  if t.kind i = k then some i
  else (t.children i).findSome? fun c =>
    if i < c ∧ c < t.size then findFirst t k c else none
termination_by t.size - i
decreasing_by omega

def findAll (t : Tree) (k : Kind) (i : Nat) : List Nat :=
  (t.descendants i).filter fun d => t.kind d = k

end Tree

end ArchLint.Syntax
