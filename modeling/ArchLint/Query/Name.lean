import ArchLint.Query.Error
import ArchLint.Text.Segment

/-!
# Names

Dotted names of packages, imports, superclasses and annotations.
-/

namespace ArchLint.Syntax.Tree

/-- The segments of a member access joined by dots; any other node stands for its text. -/
def dottedName (t : Tree) (i : Nat) : String :=
  if t.kind i = .dot then
    (match t.child i 0 with
    | some left => if i < left ∧ left < t.size then dottedName t left else ""
    | none => "") ++
    (match t.child i 1 with
    | some right => "." ++ (t.text right).getD ""
    | none => "")
  else (t.text i).getD ""
termination_by t.size - i

def qualifiedName (t : Tree) (i : Nat) : Except QueryError String := do
  Query.qualifiedName.check t i
  match t.findFirst .dot i with
  | some dot => return t.dottedName dot
  | none => Query.qualifiedName.require t i "name" ((t.findFirst .ident i).bind t.text)

def superClassName (t : Tree) (i : Nat) : Except QueryError (Option String) := do
  Query.superClassName.check t i
  return ((t.findChild i .extendsClause).bind t.firstChild).bind fun target =>
    if t.kind target = .dot then some (t.dottedName target) else t.text target

def isAnnotatedWith (t : Tree) (i : Nat) (name : String) : Bool :=
  (t.findAll .annotationUse i).any fun a =>
    ((t.children a).find? fun c => t.kind c = .ident || t.kind c = .dot).any
      fun target => t.dottedName target = name

end ArchLint.Syntax.Tree

namespace ArchLint

/-- `name` is the package `base` or lies beneath it. -/
def packageMatches (name base : String) : Bool :=
  name = base ||
    match base.toList.isPrefixOf? name.toList with
    | some ('.' :: _) => true
    | _ => false

end ArchLint
