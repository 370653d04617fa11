import ArchLint.Analyzer
import ArchLint.Config.Source
import ArchLint.Config.Template
import ArchLint.Java
import ArchLint.Report.Format
import ArchLint.Rule.Registry
import ArchLint.Text.Blank

/-!
# Commands

Checking a project, listing the rules, and writing a configuration to start from.
-/

namespace ArchLint

inductive CommandError where
  | badConfig (path : Path)
  | noKnownRule (filter : String)
  | build (cause : AnalyzerError)
  | analysis (cause : AnalyzerError)
  | configExists (path : Path)
  | write (cause : Volume.AccessError)
  deriving DecidableEq, Repr

def CommandError.message : CommandError → String
  | .badConfig path => "Failed to load config: " ++ path.text
  | .noKnownRule filter =>
    "No known rules in --rules " ++ filter ++ "; see `archcheck list-rules`"
  | .build _ => "Failed to build analyzer"
  | .analysis _ => "Analysis failed"
  | .configExists path =>
    "Configuration file already exists at " ++ path.text ++ ". Use --force to overwrite."
  | .write cause => cause.message

structure CheckRequest where
  path : Path := ⟨"."⟩
  format : ReportFormat := .text
  filter : Option String := none
  exclude : List String := []
  source : ConfigSource := .builtin

/-- The outcome of a check: it passes unless an error was reported. -/
structure CheckOutcome where
  passed : Bool
  output : String
  deriving DecidableEq, Repr

namespace Command

/-- The names in a list with commas. -/
def namesIn (filter : String) : List String :=
  ((Text.segments ',' filter.toList).map Text.trim).filterMap fun name =>
    if name = [] then none else some (String.ofList name)

/-- The rules of a check, at least one if the caller names some. -/
def rulesFor (filter : Option String) (config : Config) : Except CommandError (List Rule) :=
  match filter with
  | none => .ok (Registry.configured config)
  | some filter =>
    match Registry.select (namesIn filter) config with
    | [] => .error (.noKnownRule filter)
    | rules => .ok rules

def sourceText (v : Volume) (root file : Path) : Option String :=
  (v.readText (root.join file)).toOption

def check (e : Environment) (request : CheckRequest) : Except CommandError CheckOutcome :=
  match request.source.load e with
  | .error path => .error (.badConfig path)
  | .ok config =>
    match rulesFor request.filter config with
    | .error cause => .error cause
    | .ok rules =>
      match Analyzer.build e.workingDirectory (some request.path) rules request.exclude config
          (some Java.sourceParser) false with
      | .error cause => .error (.build cause)
      | .ok analyzer =>
        match (analyzer.analyze e.volume).1 with
        | .error cause => .error (.analysis cause)
        | .ok report => .ok
          { passed := !report.hasErrors
            output := report.render (sourceText e.volume analyzer.root) request.format }

def ruleRow (code name severity description : String) : String :=
  Text.padEnd 8 code ++ " " ++ Text.padEnd 28 name ++ " " ++ Text.padEnd 9 severity ++ " " ++
    description ++ "\n"

def listRules : String :=
  "Available rules:\n\n" ++
    ruleRow "Code" "Name" "Severity" "Description" ++
    String.ofList (List.replicate 90 '-') ++ "\n" ++
    String.join (Registry.all.map fun r => ruleRow r.code r.name r.severity.name r.description) ++
    "\nConfigure rules under [rules.<name>] in archcheck.toml.\n" ++
    "\nUse --rules to run specific rules, e.g.:\n" ++
    "  archcheck check --rules require-base-class,forbidden-dependency\n" ++
    "  archcheck check --rules AC001,AC003\n"

def initPath : Path := ⟨"archcheck.toml"⟩

def initNote : String :=
  "Created archcheck.toml\n\nNext steps:\n  1. Edit archcheck.toml to configure rules\n" ++
    "  2. Run: archcheck check\n"

def init (e : Environment) (force : Bool) : Except CommandError Environment :=
  if e.volume.occupied (e.locate initPath) && !force then .error (.configExists initPath)
  else
    match e.volume.writeText (e.locate initPath) configTemplate with
    | .error cause => .error (.write cause)
    | .ok volume => .ok { e with volume }

end Command

end ArchLint
