import ArchLint.Config
import ArchLint.Discovery
import ArchLint.Glob
import ArchLint.Query.Name
import ArchLint.Report
import ArchLint.Rule
import ArchLint.SourceParser

/-!
# The analyzer

Runs rules over files, one file after the other. The rules keep their state from file to file.
-/

namespace ArchLint

open Syntax

inductive AnalyzerError where
  | io (cause : Volume.AccessError)
  | walk (root : Path)
  | parse (path : Path) (cause : ParseError)
  | glob (cause : GlobError)
  | noParser
  deriving DecidableEq, Repr

def AnalyzerError.message : AnalyzerError → String
  | .io cause => "IO error: " ++ cause.message
  | .walk root =>
    "Failed to walk directory: IO error for operation on " ++ root.text ++ ": " ++
      Volume.AccessError.notFound.message
  | .parse path cause => "Parse error in " ++ path.text ++ ": " ++ cause.message
  | .glob cause => "Invalid glob pattern: " ++ cause.message
  | .noParser => "No source parser configured"

structure Analyzer where
  root : Path
  rules : List Rule
  excludes : List Glob
  config : Config
  parser : Option SourceParser
  failOnParseError : Bool

namespace Analyzer

/-- An analyzer for the directory `root`, or for the one that the configuration names, as seen
from `workingDirectory`. Patterns in `exclude` go before those of the configuration, and rules
that the configuration disables are dropped. -/
def build (workingDirectory : Path) (root : Option Path) (rules : List Rule)
    (exclude : List String) (config : Config) (parser : Option SourceParser)
    (failOnParseError : Bool) : Except AnalyzerError Analyzer :=
  match (exclude ++ config.analyzer.exclude).mapM Glob.parse with
  | .error e => .error (.glob e)
  | .ok excludes => .ok
    { root := workingDirectory.join (root.getD config.analyzer.root)
      rules := rules.filter fun r => config.isEnabled r.name
      excludes := excludes
      config := config
      parser := parser
      failOnParseError := failOnParseError }

/-- The file declares a package that the configuration leaves out. -/
def ignores (a : Analyzer) (t : Tree) : Bool :=
  match t.findFirst .packageDef Tree.root with
  | none => false
  | some package =>
    match t.qualifiedName package with
    | .ok name => a.config.analyzer.ignorePackages.any (packageMatches name)
    | .error _ => false

def withSeverity (c : Config) (v : Violation) : Violation :=
  { v with severity := (c.severity? v.rule).getD v.severity }

/-- Runs every rule over a tree. Files in ignored packages are not counted as checked. -/
def checkTree (a : Analyzer) (f : SourceFile) (t : Tree) : Report × Analyzer :=
  if a.ignores t then ({}, a)
  else
    let w := walk t f a.rules
    ({ violations := w.violations.map (withSeverity a.config)
       filesChecked := 1
       ruleFailures := w.failures },
      { a with rules := w.rules })

def analyzeSource (a : Analyzer) (path : Path) (content : String) :
    Except AnalyzerError Report × Analyzer :=
  match a.parser with
  | none => (.error .noParser, a)
  | some parser =>
    match parser.parse content with
    | .error e => (.error (.parse path e), a)
    | .ok t =>
      let (report, a) := a.checkTree (.ofRoot path content a.root) t
      (.ok report, a)

def isExcluded (a : Analyzer) (path : Path) : Bool :=
  a.excludes.any fun g => g.accepts path.text || g.accepts (path.relativeTo a.root).text

def discover (a : Analyzer) (v : Volume) : Except AnalyzerError (List Path) :=
  match a.parser with
  | none => .error .noParser
  | some parser =>
    match Discovery.files? a.config.analyzer.respectGitignore v a.root with
    | none => .error (.walk a.root)
    | some paths =>
      let sources := paths.filter fun p =>
        p.extension?.any parser.extensions.contains && !a.isExcluded p
      .ok (sources.mergeSort fun p q => p.compare q != .gt)

/-- Analyzes files one by one and adds up what they give. A file that does not parse is passed
over unless the analyzer is told to fail. -/
def analyzeFiles (v : Volume) : List Path → Report → Analyzer →
    Except AnalyzerError Report × Analyzer
  | [], report, a => (.ok report, a)
  | path :: paths, report, a =>
    match v.readText path with
    | .error e => (.error (.io e), a)
    | .ok content =>
      match a.analyzeSource path content with
      | (.ok found, a) => analyzeFiles v paths (report.append found) a
      | (.error (.parse path e), a) =>
        if a.failOnParseError then (.error (.parse path e), a) else analyzeFiles v paths report a
      | (.error e, a) => (.error e, a)

def analyze (a : Analyzer) (v : Volume) : Except AnalyzerError Report × Analyzer :=
  match a.discover v with
  | .error e => (.error e, a)
  | .ok paths =>
    match analyzeFiles v paths {} a with
    | (.ok report, a) => (.ok report.sort, a)
    | (.error e, a) => (.error e, a)

end Analyzer

end ArchLint
