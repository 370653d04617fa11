import ArchLint.Report.Text
import ArchLint.Text.Line
import ArchLint.Text.Pad
import ArchLint.Text.Wrap

/-!
# Reports with excerpts

Every violation with the line it is about and its neighbours, for reading in a terminal of eighty
columns.
-/

namespace ArchLint

open Text

namespace Excerpt

def columns : Nat := 78

def expandTabs (line : List Char) : List Char :=
  (line.foldl (fun (done, column) c =>
    if c = '\t' then
      let n := 4 - column % 4
      (done ++ List.replicate n ' ', column + n)
    else (done ++ [c], column + charWidth c)) ([], 0)).1

def dashes (n : Nat) : String :=
  String.ofList (List.replicate n '─')

def sourceLine (size number : Nat) (line : List Char) : String :=
  " " ++ padEnd size (toString number) ++ " │ " ++ String.ofList (expandTabs line) ++ "\n"

/-- The underline of a line that is `n` columns wide, with a mark in the middle. -/
def underline (n : Nat) : String :=
  if n = 0 then "▲" else dashes (n / 2) ++ "┬" ++ dashes (n - n / 2 - 1)

def body (label : String) (before : Option (List Char)) (line : List Char)
    (after : Option (List Char)) (number : Nat) : String :=
  let size := (toString (if after.isSome then number + 1 else number)).length
  let n := width (expandTabs line)
  let margin := blanks (size + 2)
  (match before with
    | some l => sourceLine size (number - 1) l
    | none => "") ++
  sourceLine size number line ++
  margin ++ "· " ++ underline n ++ "\n" ++
  margin ++ "· " ++ blanks (n / 2) ++ "╰── " ++ label ++ "\n" ++
  (match after with
    | some l => sourceLine size (number + 1) l
    | none => "") ++
  margin ++ "╰────\n"

def ofViolation (v : Violation) (content : String) : String :=
  let ls := lines content.toList
  let number := v.location.line
  let at_ (n : Nat) : Option (List Char) := if n = 0 then none else ls[n - 1]?
  let size := (toString (if (at_ (number + 1)).isSome then number + 1 else number)).length
  blanks (size + 2) ++ "╭─[" ++ v.location.file.text ++ ":" ++ toString number ++ ":1]\n" ++
    body v.rule (at_ (number - 1)) ((at_ number).getD []) (at_ (number + 1)) number

end Excerpt

namespace Violation

def pretty (v : Violation) (source : Option String) : String :=
  let paragraph (first later text : String) : String :=
    "\n".intercalate (fill ⟨Excerpt.columns, first, later⟩ text) ++ "\n"
  paragraph "  × " "  │ " ("[" ++ v.code ++ "] " ++ v.message) ++
    (source.map (Excerpt.ofViolation v)).getD "" ++
    (v.suggestion.map (paragraph "  help: " "        ")).getD ""

end Violation

def Report.renderPretty (r : Report) (source : Path → Option String) : String :=
  String.join (r.violations.map fun v => v.pretty (source v.location.file) ++ "\n") ++
    r.summaryLine

end ArchLint
