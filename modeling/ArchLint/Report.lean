import ArchLint.Violation

/-!
# Reports

The outcome of a run: the violations found, the number of files checked and the number of rule
visits that failed.
-/

namespace ArchLint

structure Report where
  violations : List Violation := []
  filesChecked : Nat := 0
  ruleFailures : Nat := 0
  deriving DecidableEq, Repr, Inhabited

namespace Report

def empty : Report := {}

def push (r : Report) (v : Violation) : Report :=
  { r with violations := r.violations ++ [v] }

def append (r other : Report) : Report :=
  { violations := r.violations ++ other.violations
    filesChecked := r.filesChecked + other.filesChecked
    ruleFailures := r.ruleFailures + other.ruleFailures }

def hasAtLeast (r : Report) (s : Severity) : Bool :=
  r.violations.any fun v => s.rank ≤ v.severity.rank

def hasErrors (r : Report) : Bool :=
  r.hasAtLeast .error

def count (r : Report) (s : Severity) : Nat :=
  r.violations.countP fun v => v.severity = s

/-- Order of file, then line, then column. -/
def precedes (a b : Violation) : Bool :=
  ((a.location.file.compare b.location.file).then
    ((Ord.compare a.location.line b.location.line).then
      (Ord.compare a.location.column b.location.column))) != .gt

/-- Violations in order of their places; those at one place stay in their order. -/
def sort (r : Report) : Report :=
  { r with violations := r.violations.mergeSort precedes }

def summary (r : Report) : String :=
  "Found " ++ toString (r.count .error) ++ " error(s), " ++ toString (r.count .warning) ++
    " warning(s), " ++ toString (r.count .info) ++ " info(s) in " ++ toString r.filesChecked ++
    " file(s)" ++
    if r.ruleFailures > 0 then " (" ++ toString r.ruleFailures ++ " rule visit(s) failed)" else ""

def format (r : Report) : String :=
  String.join (r.violations.map fun v => v.format ++ "\n") ++ r.summary

end Report

end ArchLint
