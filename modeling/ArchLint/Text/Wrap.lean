import ArchLint.Text.Identifier
import ArchLint.Text.Segment
import ArchLint.Text.Width

/-!
# Filled text

Lines broken so that they fit a width, each filled as far as it goes. A line may break after
blanks, after some punctuation, between ideographs and after a hyphen within a word; a word that
is too long for a line is cut.
-/

namespace ArchLint.Text

inductive BreakClass where
  | blank
  | opening
  | closing
  | bracket
  | quotation
  | exclamation
  | point
  | slash
  | after
  | hyphen
  | numeric
  | digit
  | ideograph
  | letter
  deriving DecidableEq, Repr

def BreakClass.of (c : Char) : BreakClass :=
  if c.isDigit then .digit
  else
    match c with
    | ' ' => .blank
    | '(' | '[' | '\x7b' => .opening
    | '\x7d' => .closing
    | ')' | ']' => .bracket
    | '"' | '\'' => .quotation
    | '!' | '?' => .exclamation
    | ',' | '.' | ':' | ';' => .point
    | '/' => .slash
    | '|' | '\t' => .after
    | '-' => .hyphen
    | '%' | '$' | '+' | '\\' => .numeric
    | c => if doubleWidth.contains c then .ideograph else .letter

def BreakClass.clings : BreakClass → Bool
  | .closing | .bracket | .exclamation | .point | .slash => true
  | _ => false

def BreakClass.isWordlike : BreakClass → Bool
  | .letter | .digit => true
  | _ => false

/-- A line may break between two characters with nothing between them. -/
def mayBreak (a b : BreakClass) : Bool :=
  if b = .blank || b.clings || b = .quotation || b = .after || b = .hyphen then false
  else
    match a with
    | .blank | .hyphen | .opening | .quotation => false
    | .bracket | .point => !b.isWordlike
    | .slash => b ≠ .digit
    | .numeric => !b.isWordlike && b ≠ .opening && b ≠ .numeric
    | .letter | .digit => !b.isWordlike && b ≠ .opening && b ≠ .numeric
    | .ideograph | .exclamation | .closing | .after => true

def mayBreakAfterBlanks (a : Option BreakClass) (b : BreakClass) : Bool :=
  !b.clings && a ≠ some .opening && !(a = some .quotation && b = .opening)

structure Word where
  text : List Char
  blanks : Nat
  deriving DecidableEq, Repr

def Word.ofChars (cs : List Char) : Word :=
  let reversed := cs.reverse
  ⟨(reversed.dropWhile (· = ' ')).reverse, (reversed.takeWhile (· = ' ')).length⟩

/-- Cuts a text where it may break. `piece` is the present piece, last character first; `before`
is its last character that is no blank. -/
def pieces (piece : List Char) (before : Option BreakClass) : List Char → List (List Char)
  | [] => [piece.reverse]
  | c :: cs =>
    let cls := BreakClass.of c
    let breaks : Bool :=
      match piece with
      | [] => false
      | last :: _ =>
        if last = ' ' then cls ≠ .blank && mayBreakAfterBlanks before cls
        else mayBreak (BreakClass.of last) cls
    let before := if cls = .blank then before else some cls
    if breaks then piece.reverse :: pieces [c] before cs else pieces (c :: piece) before cs

def isAlphanumeric (c : Char) : Bool :=
  c ≠ '_' && identifierContinue.contains c

def hyphenParts (part : List Char) : List Char → List (List Char)
  | [] => [part.reverse]
  | c :: cs =>
    if c = '-' && part.head?.any isAlphanumeric && cs.head?.any isAlphanumeric then
      (c :: part).reverse :: hyphenParts [] cs
    else hyphenParts (c :: part) cs

def cut (limit : Nat) (part : List Char) (taken : Nat) : List Char → List (List Char)
  | [] => [part.reverse]
  | c :: cs =>
    if 0 < taken && limit < taken + charWidth c then
      part.reverse :: cut limit [c] (charWidth c) cs
    else cut limit (c :: part) (taken + charWidth c) cs

def Word.splitBy (split : List Char → List (List Char)) (w : Word) : List Word :=
  let parts := split w.text
  parts.dropLast.map (⟨·, 0⟩) ++ [⟨parts.getLast?.getD [], w.blanks⟩]

def words (limit : Nat) (line : List Char) : List Word :=
  ((pieces [] none line).map Word.ofChars).flatMap fun w =>
    (w.splitBy (hyphenParts [])).flatMap fun w =>
      if limit < width w.text then w.splitBy (cut limit [] 0) else [w]

def fillWords (limit later : Nat) (line : List Word) (taken : Nat) : List Word → List (List Word)
  | [] => [line.reverse]
  | w :: ws =>
    if limit < taken + width w.text && !line.isEmpty then
      line.reverse :: fillWords later later [w] (width w.text + w.blanks) ws
    else fillWords limit later (w :: line) (taken + width w.text + w.blanks) ws

def lineText : List Word → List Char
  | [] => []
  | [w] => w.text
  | w :: ws => w.text ++ List.replicate w.blanks ' ' ++ lineText ws

structure Layout where
  columns : Nat
  first : String
  later : String

/-- The lines of a text; line feeds in it always end a line. -/
def fill (layout : Layout) (text : String) : List String :=
  let firstRoom := layout.columns - width layout.first.toList
  let room := layout.columns - width layout.later.toList
  let lines := (segments '\n' text.toList).zipIdx.flatMap fun (line, i) =>
    fillWords (if i = 0 then firstRoom else room) room [⟨[], 0⟩] 0 (words room line)
  lines.zipIdx.map fun (line, i) =>
    (if i = 0 then layout.first else layout.later) ++ String.ofList (lineText line)

end ArchLint.Text
