import ArchLint.Query.Assignment
import ArchLint.Query.Binding
import ArchLint.Rule

/-!
# No parameter reassignment

A parameter keeps the value it was given. Writing to an element or to a member of it is fine.
-/

namespace ArchLint

open Syntax

structure ParameterRule where
  severity : Severity := .warning
  deriving DecidableEq, Repr

namespace ParameterRule

def name : String := "no-parameter-reassignment"

def code : String := "AC003"

/-- An initializer or an annotation member, which assign nothing anew. -/
def isInitial (t : Tree) (i : Nat) : Bool :=
  (t.parent i).any fun p => t.kind p = .variableDef || t.kind p = .annotationMemberValuePair

def check (t : Tree) (i : Nat) : Except QueryError (List Finding) :=
  if isInitial t i then .ok []
  else
    match t.targetIdent i with
    | none => .ok []
    | some target =>
      if (t.parent target).any fun p => t.kind p = .indexOp then .ok []
      else do
        match ← t.resolveDeclaration target with
        | none => return []
        | some d =>
          if t.kind d = .parameterDef then
            return [{ line := t.line i
                      message := "Parameter `" ++ (← t.declaredName d) ++ "` is reassigned"
                      help := some "assign to a new local variable instead" }]
          else return []

def toRule (r : ParameterRule) : Rule :=
  .stateless name code "Forbids assigning a new value to a parameter" r.severity [.assign] check

end ParameterRule

end ArchLint
