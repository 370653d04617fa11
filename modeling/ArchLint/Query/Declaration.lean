import ArchLint.Query.Error

/-!
# Declarations and their scopes

A declaration is a variable or parameter definition. Its scope is the nearest class, constructor
or method around it.
-/

namespace ArchLint.Syntax.Tree

def declaredName (t : Tree) (i : Nat) : Except QueryError String := do
  Query.declaredName.check t i
  Query.declaredName.require t i "declared identifier" ((t.declaredIdent i).bind t.text)

/-- The nearest class, constructor or method from `i` upward; such a node is its own scope. -/
def enclosingScope (t : Tree) (i : Nat) : Option Nat :=
  (i :: t.ancestors i).find? fun a => (t.kind a).isScope

/-- The nearest class strictly above `i`. -/
def enclosingClass (t : Tree) (i : Nat) : Option Nat :=
  (t.ancestors i).find? fun a => t.kind a = .classDef

def isRecord (t : Tree) (i : Nat) : Bool :=
  t.kind i = .classDef && t.text i = some "record"

def isInnerClass (t : Tree) (i : Nat) : Bool :=
  (t.enclosingClass i).isSome

end ArchLint.Syntax.Tree
