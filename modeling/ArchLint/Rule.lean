import ArchLint.Allowance
import ArchLint.Query.Error
import ArchLint.SourceFile
import ArchLint.Violation

/-!
# Rules

A rule is a machine that is shown the nodes of a tree it is interested in and reports findings.
It keeps a state between nodes and between files.
-/

namespace ArchLint

open Syntax

structure Finding where
  line : Nat
  message : String
  help : Option String := none
  deriving DecidableEq, Repr

/-- What a rule does at one node: its next state, what it reports, and the query error that ended
the visit, if one did. -/
structure Visit (σ : Type) where
  state : σ
  findings : List Finding := []
  failure : Option QueryError := none

structure Rule where
  State : Type
  state : State
  name : String
  code : String
  description : String := ""
  severity : Severity := .error
  interests : List Kind
  beginFile : State → SourceFile → State := fun s _ => s
  visit : State → Tree → Nat → Visit State

namespace Rule

def stateless (name code description : String) (severity : Severity) (interests : List Kind)
    (check : Tree → Nat → Except QueryError (List Finding)) : Rule where
  State := Unit
  state := ()
  name := name
  code := code
  description := description
  severity := severity
  interests := interests
  visit _ t i :=
    match check t i with
    | .ok findings => { state := (), findings }
    | .error e => { state := (), failure := some e }

def start (r : Rule) (f : SourceFile) : Rule :=
  { r with state := r.beginFile r.state f }

/-- The rule after a visit to node `i`, with what it reported and how it ended. -/
def inspect (r : Rule) (t : Tree) (i : Nat) : Rule × List Finding × Option QueryError :=
  let v := r.visit r.state t i
  ({ r with state := v.state }, v.findings, v.failure)

/-- The violation that a finding stands for, unless a directive in the file allows it. -/
def violation? (r : Rule) (f : SourceFile) (finding : Finding) : Option Violation :=
  if (Allowance.find? f.content finding.line r.name).isSome then none
  else some
    { code := r.code
      rule := r.name
      severity := r.severity
      location :=
        { file := f.relativePath
          line := finding.line
          column := 1
          offset := f.offsetOf finding.line 1
          length := f.lineLength finding.line }
      message := finding.message
      suggestion := finding.help }

end Rule

structure Run where
  rule : Rule
  findings : Array Finding := #[]
  failures : Nat := 0

namespace Run

def step (t : Tree) (run : Run) (i : Nat) : Run :=
  if run.rule.interests.contains (t.kind i) then
    let (rule, findings, failure) := run.rule.inspect t i
    { rule
      findings := run.findings ++ findings
      failures := run.failures + if failure.isSome then 1 else 0 }
  else run

def violations (run : Run) (f : SourceFile) : List Violation :=
  run.findings.toList.filterMap (run.rule.violation? f)

end Run

/-- What walking one file gave: violations in the order of the rules, the number of visits that
failed, and the rules as they are now. -/
structure Walk where
  violations : List Violation
  failures : Nat
  rules : List Rule

def walk (t : Tree) (f : SourceFile) (rules : List Rule) : Walk :=
  let runs := (Tree.root :: t.descendants Tree.root).foldl
    (fun runs i => runs.map fun run => run.step t i)
    (rules.map fun r => { rule := r.start f : Run })
  { violations := runs.flatMap fun run => run.violations f
    failures := runs.foldl (fun n run => n + run.failures) 0
    rules := runs.map Run.rule }

end ArchLint
