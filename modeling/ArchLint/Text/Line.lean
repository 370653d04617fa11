/-!
# Lines

A text as a sequence of lines. A line ends with a line feed; a carriage return just before it
belongs to the terminator.
-/

namespace ArchLint.Text

/-- The lines of a text with their terminators; the last one may lack its line feed. -/
def terminatedLines (cs : List Char) : List (List Char) :=
  cs.foldr step []
where
  step (c : Char) : List (List Char) → List (List Char)
    | [] => [[c]]
    | line :: rest => if c = '\n' then [c] :: line :: rest else (c :: line) :: rest

def dropTerminator (line : List Char) : List Char :=
  match line.reverse with
  | '\n' :: '\r' :: rest => rest.reverse
  | '\n' :: rest => rest.reverse
  | _ => line

def lines (cs : List Char) : List (List Char) :=
  (terminatedLines cs).map dropTerminator

def byteLength (cs : List Char) : Nat :=
  cs.foldl (fun n c => n + c.utf8Size) 0

end ArchLint.Text
