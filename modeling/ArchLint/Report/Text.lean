import ArchLint.Report

/-!
# Reports as text

Text for a terminal, with colours.
-/

namespace ArchLint

/-- A colour of the terminal, by the number of its escape sequence. -/
structure Colour where
  number : Nat
  deriving DecidableEq, Repr

namespace Colour

def red : Colour := ⟨31⟩

def green : Colour := ⟨32⟩

def yellow : Colour := ⟨33⟩

def blue : Colour := ⟨34⟩

def paint (c : Colour) (text : String) : String :=
  "\x1b[" ++ toString c.number ++ "m" ++ text ++ "\x1b[0m"

end Colour

def Severity.colour : Severity → Colour
  | .error => .red
  | .warning => .yellow
  | .info => .blue

namespace Report

/-- The worst that was found decides the colour of the summary. -/
def colour (r : Report) : Colour :=
  if r.count .error > 0 then .red
  else if r.count .warning > 0 then .yellow
  else .green

def summaryLine (r : Report) : String :=
  r.colour.paint r.summary ++ "\n"

def renderText (r : Report) : String :=
  String.join (r.violations.map fun v =>
    v.linesWith (v.severity.colour.paint v.severity.name) ++ "\n") ++ r.summaryLine

def renderCompact (r : Report) : String :=
  String.join (r.violations.map fun v => v.oneLine ++ "\n")

end Report

end ArchLint
