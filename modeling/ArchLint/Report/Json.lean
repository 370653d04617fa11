import ArchLint.Json.Parser
import ArchLint.Json.Printer
import ArchLint.Report

/-!
# Reports as JSON

A report is written as an object. When read, an object may also be given as the array of its
values in order; keys without a meaning are passed over, and a key with a meaning must not be
repeated.
-/

namespace ArchLint

def Location.toJson (l : Location) : Json :=
  .object
    [ ("file", .string l.file.text), ("line", .number l.line), ("column", .number l.column),
      ("offset", .number l.offset), ("length", .number l.length) ]

def Violation.toJson (v : Violation) : Json :=
  .object <|
    [ ("code", .string v.code), ("rule", .string v.rule), ("severity", .string v.severity.name),
      ("location", v.location.toJson), ("message", .string v.message) ] ++
    match v.suggestion with
    | some s => [("suggestion", .object [("message", .string s)])]
    | none => []

def Report.toJson (r : Report) : Json :=
  .object
    [ ("violations", .array (r.violations.map Violation.toJson)),
      ("files_checked", .number r.filesChecked), ("rule_failures", .number r.ruleFailures) ]

namespace Json

def once (members : List (String × Json)) (key : String) : Option (Option Json) :=
  match members.filter fun (k, _) => k = key with
  | [] => some none
  | [(_, v)] => some (some v)
  | _ => none

/-- The values of the given keys, each of which may be absent. -/
def fields? (keys : List String) : Json → Option (List (Option Json))
  | .object members => keys.mapM (once members)
  | .array items =>
    if items.length ≤ keys.length then
      some (items.map some ++ List.replicate (keys.length - items.length) none)
    else none
  | _ => none

def asString? : Json → Option String
  | .string s => some s
  | _ => none

def asNumber? : Json → Option Nat
  | .number n => some n
  | _ => none

end Json

def Severity.ofJson? : Json → Option Severity
  | .string name => Severity.ofName? name
  | .object [(name, .null)] => Severity.ofName? name
  | _ => none

def Location.ofJson? (j : Json) : Option Location :=
  match j.fields? ["file", "line", "column", "offset", "length"] with
  | some [some file, some line, some column, some offset, some length] => do
    return { file := ⟨← file.asString?⟩
             line := ← line.asNumber?
             column := ← column.asNumber?
             offset := ← offset.asNumber?
             length := ← length.asNumber? }
  | _ => none

def Violation.suggestionOfJson? : Option Json → Option (Option String)
  | none | some .null => some none
  | some j =>
    match j.fields? ["message"] with
    | some [some message] => message.asString?.map some
    | _ => none

def Violation.ofJson? (j : Json) : Option Violation :=
  match j.fields? ["code", "rule", "severity", "location", "message", "suggestion"] with
  | some [some code, some rule, some severity, some location, some message, suggestion] => do
    return { code := ← code.asString?
             rule := ← rule.asString?
             severity := ← Severity.ofJson? severity
             location := ← Location.ofJson? location
             message := ← message.asString?
             suggestion := ← Violation.suggestionOfJson? suggestion }
  | _ => none

def Report.ofJson? (j : Json) : Option Report :=
  match j.fields? ["violations", "files_checked", "rule_failures"] with
  | some [some (.array violations), some filesChecked, ruleFailures] => do
    return { violations := ← violations.mapM Violation.ofJson?
             filesChecked := ← filesChecked.asNumber?
             ruleFailures := ← match ruleFailures with
               | some n => n.asNumber?
               | none => some 0 }
  | _ => none

/-- The report that a text describes, unless it describes none. -/
def Report.parse? (text : String) : Option Report :=
  (Json.parse? text).bind Report.ofJson?

end ArchLint
