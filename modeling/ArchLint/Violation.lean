import ArchLint.Path
import ArchLint.Severity

/-!
# Violations

What a rule complains about, where, and how it is written for people.
-/

namespace ArchLint

/-- A place in a file. The span `offset`, `length` counts bytes. -/
structure Location where
  file : Path
  line : Nat
  column : Nat
  offset : Nat := 0
  length : Nat := 0
  deriving DecidableEq, Repr, Inhabited

structure Violation where
  code : String
  rule : String
  severity : Severity
  location : Location
  message : String
  suggestion : Option String := none
  deriving DecidableEq, Repr, Inhabited

def Location.label (l : Location) : String :=
  l.file.text ++ ":" ++ toString l.line ++ ":" ++ toString l.column

namespace Violation

def linesWith (severity : String) (v : Violation) : String :=
  v.code ++ " " ++ v.rule ++ " at " ++ v.location.label ++ "\n" ++
    "  " ++ severity ++ ": " ++ v.message ++ "\n" ++
    match v.suggestion with
    | some s => "  = help: " ++ s ++ "\n"
    | none => ""

def format (v : Violation) : String :=
  v.linesWith v.severity.name

def oneLine (v : Violation) : String :=
  v.location.label ++ ": " ++ v.severity.name ++ " [" ++ v.code ++ "] " ++ v.message

end Violation

end ArchLint
