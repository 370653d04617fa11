import ArchLint.Path
import ArchLint.Severity
import ArchLint.Toml

/-!
# Configuration

What a configuration file says about the analysis as a whole and about each rule.
-/

namespace ArchLint

open Toml (Value)

structure AnalyzerConfig where
  root : Path := ⟨"."⟩
  exclude : List String := ["**/target/**", "**/build/**"]
  ignorePackages : List String := []
  respectGitignore : Bool := true
  deriving DecidableEq, Repr, Inhabited

structure RuleConfig where
  enabled : Option Bool := none
  severity : Option Severity := none
  options : List (String × Value) := []
  deriving Inhabited

structure Config where
  analyzer : AnalyzerConfig := {}
  rules : List (String × RuleConfig) := []
  deriving Inhabited

namespace RuleConfig

def option? (c : RuleConfig) (key : String) : Option Value :=
  c.options.lookup key

def string (c : RuleConfig) (key default : String) : String :=
  ((c.option? key).bind Value.asString?).getD default

def bool (c : RuleConfig) (key : String) (default : Bool) : Bool :=
  ((c.option? key).bind Value.asBool?).getD default

def strings (c : RuleConfig) (key : String) : List String :=
  (((c.option? key).bind Value.asArray?).getD []).filterMap Value.asString?

def text? (c : RuleConfig) (key : String) : Option String :=
  (c.option? key).bind Value.toText?

end RuleConfig

namespace Config

def rule? (c : Config) (name : String) : Option RuleConfig :=
  c.rules.lookup name

/-- Rules are enabled unless their section says otherwise. -/
def isEnabled (c : Config) (name : String) : Bool :=
  ((c.rule? name).bind RuleConfig.enabled).getD true

def severity? (c : Config) (name : String) : Option Severity :=
  (c.rule? name).bind RuleConfig.severity

-- Each part is read from a value. A part that is absent has its default; one of the wrong type
-- makes the whole configuration invalid, and keys without a meaning are passed over.

def field {α : Type} (entries : List (String × Value)) (key : String) (default : α)
    (read : Value → Option α) : Option α :=
  match entries.lookup key with
  | none => some default
  | some v => read v

def position {α : Type} (items : List Value) (i : Nat) (default : α)
    (read : Value → Option α) : Option α :=
  match items[i]? with
  | none => some default
  | some v => read v

def readStrings : Value → Option (List String)
  | .array items => items.mapM Value.asString?
  | _ => none

/-- The settings as a table, or as an array of their values in order. A date has no such key and
stands for the defaults. -/
def readAnalyzer (v : Value) : Option AnalyzerConfig :=
  let default : AnalyzerConfig := {}
  let readRoot (v : Value) : Option Path := v.asString?.map Path.mk
  match v with
  | .table entries => do
    return { root := ← field entries "root" default.root readRoot
             exclude := ← field entries "exclude" default.exclude readStrings
             ignorePackages := ← field entries "ignore_packages" default.ignorePackages readStrings
             respectGitignore :=
               ← field entries "respect_gitignore" default.respectGitignore Value.asBool? }
  | .array items => do
    return { root := ← position items 0 default.root readRoot
             exclude := ← position items 1 default.exclude readStrings
             ignorePackages := ← position items 2 default.ignorePackages readStrings
             respectGitignore := ← position items 3 default.respectGitignore Value.asBool? }
  | .datetime _ => some default
  | _ => none

def isVacant : Value → Bool
  | .array [] | .table [] => true
  | _ => false

/-- A severity by its name, or as a table with the name as its only key and nothing under it. -/
def readSeverity : Value → Option Severity
  | .string name => Severity.ofName? name
  | .table [(name, v)] => if isVacant v then Severity.ofName? name else none
  | _ => none

/-- The key under which a date takes the place of a table. -/
def datetimeKey : String := "$__toml_private_datetime"

def readRule : Value → Option RuleConfig
  | .table entries => do
    return { enabled := ← field entries "enabled" none fun v => v.asBool?.map some
             severity := ← field entries "severity" none fun v => (readSeverity v).map some
             options := entries.filter fun (key, _) => key ≠ "enabled" && key ≠ "severity" }
  | .datetime d => some { options := [(datetimeKey, .string d.text)] }
  | _ => none

def readRules : Value → Option (List (String × RuleConfig))
  | .table entries => do
    let sections ← entries.mapM fun (name, v) => do return (name, ← readRule v)
    return sections.mergeSort fun a b => !decide (b.1 < a.1)
  | _ => none

def parse? (text : String) : Option Config := do
  let entries ← Toml.parse? text
  return { analyzer := ← field entries "analyzer" {} readAnalyzer
           rules := ← field entries "rules" [] readRules }

end Config

end ArchLint
