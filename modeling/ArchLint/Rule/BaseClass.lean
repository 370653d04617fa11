import ArchLint.Query.Declaration
import ArchLint.Query.Name
import ArchLint.Rule

/-!
# Required base class

Classes whose name ends with a suffix must extend a given class. Records are exempt, since they
extend nothing.
-/

namespace ArchLint

open Syntax

structure BaseClassRule where
  suffix : String := "HTMLAction"
  baseClass : String := "HTMLActionSupport"
  message : Option String := none
  exemptedBy : Option String := none
  ignoreInnerClasses : Bool := false
  severity : Severity := .error
  deriving DecidableEq, Repr

namespace BaseClassRule

def name : String := "require-base-class"

def code : String := "AC001"

def complaint (r : BaseClassRule) : String :=
  match r.message with
  | some m => m
  | none =>
    if r.suffix = "HTMLAction" ∧ r.baseClass = "HTMLActionSupport" then
      "HTML action classes must extend HTMLActionSupport"
    else "Classes named *" ++ r.suffix ++ " must extend " ++ r.baseClass

/-- `superClass` is the base class, plain or qualified. -/
def isBase (r : BaseClassRule) (superClass : String) : Bool :=
  superClass = r.baseClass ||
    match Text.dropEnding? r.baseClass.toList superClass.toList with
    | some before => before.getLast? = some '.'
    | none => false

def concerns (r : BaseClassRule) (t : Tree) (i : Nat) (className : String) : Bool :=
  (Text.dropEnding? r.suffix.toList className.toList).isSome && !t.isRecord i &&
    !(r.ignoreInnerClasses && t.isInnerClass i) &&
    !r.exemptedBy.any (t.isAnnotatedWith i)

def check (r : BaseClassRule) (t : Tree) (i : Nat) : Except QueryError (List Finding) :=
  match (t.findChild i .ident).bind t.text with
  | none => .ok []
  | some className =>
    if r.concerns t i className then do
      if (← t.superClassName i).any r.isBase then return []
      return [{ line := t.line i
                message := r.complaint
                help := some ("add `extends " ++ r.baseClass ++ "` to `" ++ className ++ "`") }]
    else .ok []

def toRule (r : BaseClassRule) : Rule :=
  .stateless name code "Requires classes with a naming suffix to extend a base class" r.severity
    [.classDef] r.check

end BaseClassRule

end ArchLint
