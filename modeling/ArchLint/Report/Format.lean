import ArchLint.Report.Excerpt
import ArchLint.Report.Json

/-!
# Report formats

The forms in which a report can be asked for.
-/

namespace ArchLint

inductive ReportFormat where
  | text
  | json
  | compact
  | pretty
  deriving DecidableEq, Repr, Inhabited

namespace ReportFormat

def name : ReportFormat → String
  | .text => "text"
  | .json => "json"
  | .compact => "compact"
  | .pretty => "pretty"

def all : List ReportFormat := [.text, .json, .compact, .pretty]

def ofName? (name : String) : Option ReportFormat :=
  all.find? fun f => f.name = name

end ReportFormat

/-- The report as a text. `source` gives the content of a file for excerpts. -/
def Report.render (r : Report) (source : Path → Option String) : ReportFormat → String
  | .text => r.renderText
  | .json => r.toJson.print ++ "\n"
  | .compact => r.renderCompact
  | .pretty => r.renderPretty source

end ArchLint
