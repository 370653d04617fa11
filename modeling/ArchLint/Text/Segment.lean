/-!
# Segments

A text cut at every occurrence of a separator, and the pieces put together again.
-/

namespace ArchLint.Text

def consSegment (c : Char) : List (List Char) → List (List Char)
  | [] => [[c]]
  | s :: ss => (c :: s) :: ss

/-- The segments between the occurrences of `sep`; a text without `sep` is one segment. -/
def segments (sep : Char) (cs : List Char) : List (List Char) :=
  cs.foldr (fun c ss => if c = sep then [] :: ss else consSegment c ss) [[]]

def joinSegments (sep : Char) : List (List Char) → List Char
  | [] => []
  | [s] => s
  | s :: t :: ss => s ++ sep :: joinSegments sep (t :: ss)

def splitFirst (word : List Char) : List Char → Option (List Char × List Char)
  | [] => (word.isPrefixOf? []).map ([], ·)
  | c :: cs =>
    match word.isPrefixOf? (c :: cs) with
    | some rest => some ([], rest)
    | none => (splitFirst word cs).map fun (before, rest) => (c :: before, rest)

def dropEnding? (ending cs : List Char) : Option (List Char) :=
  (ending.reverse.isPrefixOf? cs.reverse).map List.reverse

end ArchLint.Text
