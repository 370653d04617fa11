import ArchLint.Text.Blank
import ArchLint.Text.Line
import ArchLint.Text.Segment

/-!
# Allowances

A comment can allow a violation on its own line and on the line below:

    // archcheck: allow(require-base-class) reason="legacy entry point"

The name `all` stands for every rule.
-/

namespace ArchLint

structure Allowance where
  rules : List String
  reason : Option String
  deriving DecidableEq, Repr

namespace Allowance

open Text

def after? (word : String) (cs : List Char) : Option (List Char) :=
  word.toList.isPrefixOf? cs

def names (body : List Char) : List String :=
  ((segments ',' body).map trim).filterMap fun piece =>
    if piece = [] then none else some (String.ofList piece)

/-- A list of names as a set: sorted, each name once. -/
def nameSet (names : List String) : List String :=
  (names.mergeSort fun a b => !decide (b < a)).eraseReps

def reason? (rest : List Char) : Option String := do
  let quoted ← after? "\"" (trim (← after? "reason=" (trim rest)))
  let (reason, _) ← splitFirst ['"'] quoted
  return String.ofList reason

def parse? (line : List Char) : Option Allowance := do
  let (_, comment) ← splitFirst ['/', '/'] line
  let directive ← after? "archcheck:" (trim comment)
  let list ← after? "allow(" (trim directive)
  let (body, rest) ← splitFirst [')'] (trim list)
  let rules := nameSet (names body)
  if rules = [] then none else some ⟨rules, reason? rest⟩

def covers (a : Allowance) (rule : String) : Bool :=
  a.rules.contains rule || a.rules.contains "all"

def lineAt (lines : List (List Char)) : Nat → Option (List Char)
  | 0 => none
  | n + 1 => lines[n]?

/-- The directive that allows `rule` at `line`: the one on the line above wins. -/
def find? (content : String) (line : Nat) (rule : String) : Option Allowance :=
  let ls := lines content.toList
  [line - 1, line].findSome? fun n =>
    ((lineAt ls n).bind parse?).filter fun a => a.covers rule

end Allowance

end ArchLint
