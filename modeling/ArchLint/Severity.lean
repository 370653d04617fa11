/-!
# Severities
-/

namespace ArchLint

inductive Severity where
  | info
  | warning
  | error
  deriving DecidableEq, Repr, Inhabited

namespace Severity

def name : Severity → String
  | .info => "info"
  | .warning => "warning"
  | .error => "error"

def ofName? : String → Option Severity
  | "info" => some .info
  | "warning" => some .warning
  | "error" => some .error
  | _ => none

def rank : Severity → Nat
  | .info => 0
  | .warning => 1
  | .error => 2

def compare (a b : Severity) : Ordering :=
  Ord.compare a.rank b.rank

end Severity

end ArchLint
