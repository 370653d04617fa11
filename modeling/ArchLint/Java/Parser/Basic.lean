import ArchLint.Java.Lexeme

/-!
# Parsers

A parser takes lexemes from the front of a sequence and gives a piece of a concrete syntax tree,
or fails at a lexeme that does not fit.
-/

namespace ArchLint.Java

/-- A tree together with the comments in front of its first token. Those belong to whatever node
the piece becomes a part of. -/
structure Piece where
  leading : List Cst
  tree : Cst
  deriving Inhabited

namespace Piece

def as (p : Piece) (f : Field) : Piece :=
  { p with tree := p.tree.withField f }

def kind (p : Piece) : Kind :=
  p.tree.kind

/-- A node made of its parts. Comments between two parts become children; those in front of the
first stay in front of the node. -/
def node (kind : Kind) : List Piece → Piece
  | [] => ⟨[], .node kind none 0 "" []⟩
  | p :: ps =>
    ⟨p.leading, .node kind none p.tree.line ""
      (p.tree :: ps.flatMap fun q => q.leading ++ [q.tree])⟩

def withText (text : String) : Piece → Piece
  | ⟨leading, .node kind field line _ children⟩ => ⟨leading, .node kind field line text children⟩

def leaf (kind : Kind) (l : Lexeme) : Piece :=
  ⟨l.comments, .node kind none l.line l.text []⟩

end Piece

structure Failure where
  line : Nat
  deriving DecidableEq, Repr

abbrev Parser := StateT (List Lexeme) (Except Failure)

namespace Parser

variable {α β : Type}

/-- The lexeme at the front of a sequence; sequences end with a mark that is never taken. -/
def front : List Lexeme → Lexeme
  | l :: _ => l
  | [] => { kind := .endOfFile, text := "", line := 1, start := 0, gap := "", comments := [] }

def peek : Parser Lexeme := fun ls => .ok (front ls, ls)

def fail : Parser α := fun ls => .error ⟨(front ls).line⟩

def next : Parser Lexeme := fun ls =>
  match ls with
  | l :: rest => if l.kind = .endOfFile then .error ⟨l.line⟩ else .ok (l, rest)
  | [] => .error ⟨1⟩

def attempt (p : Parser α) : Parser (Option α) := fun ls =>
  match p ls with
  | .ok (a, rest) => .ok (some a, rest)
  | .error _ => .ok (none, ls)

def ahead (test : List Lexeme → Bool) : Parser Bool := fun ls => .ok (test ls, ls)

def succeeds (p : Parser α) : Parser Bool := fun ls =>
  match p ls with
  | .ok _ => .ok (true, ls)
  | .error _ => .ok (false, ls)

end Parser

namespace Lexeme

def isWord (l : Lexeme) : Bool := l.kind = .word

def isKeyword (text : String) (l : Lexeme) : Bool :=
  l.kind = .word && l.text == text

def isKeywordIn (texts : List String) (l : Lexeme) : Bool :=
  l.kind = .word && texts.contains l.text

def isMark (text : String) (l : Lexeme) : Bool :=
  l.kind = .punctuation && l.text == text

def isMarkIn (texts : List String) (l : Lexeme) : Bool :=
  l.kind = .punctuation && texts.contains l.text

end Lexeme

namespace Parser

variable {α : Type}

def atKeyword (text : String) : Parser Bool := do
  return (← peek).isKeyword text

def atMark (text : String) : Parser Bool := do
  return (← peek).isMark text

def leafIf (kind : Kind) (test : Lexeme → Bool) : Parser Piece := do
  if test (← peek) then return .leaf kind (← next) else fail

def keyword (text : String) : Parser Piece :=
  leafIf .token (·.isKeyword text)

def mark (text : String) : Parser Piece :=
  leafIf .token (·.isMark text)

/-- Any word, as an identifier. Keywords are reserved only where the grammar has a use for them,
so a place that asks for a name takes them as names. -/
def identifier : Parser Piece :=
  leafIf .identifier (·.isWord)

def keywordLeaf (kind : Kind) (text : String) : Parser Piece :=
  leafIf kind (·.isKeyword text)

def optionalIf (test : Lexeme → Bool) (p : Parser (List Piece)) : Parser (List Piece) := do
  if test (← peek) then p else return []

/-- Repeats `p` as long as the condition holds ahead, at most `limit` times. -/
def manyWhile (test : List Lexeme → Bool) (p : Parser (List Piece)) :
    Nat → Array Piece → Parser (List Piece)
  | 0, _ => fail
  | limit + 1, done => fun ls =>
    if test ls then
      match p ls with
      | .ok (parts, rest) => manyWhile test p limit (done ++ parts) rest
      | .error e => .error e
    else .ok (done.toList, ls)

def commaSeparated (limit : Nat) (p : Parser (List Piece)) : Parser (List Piece) := do
  let first ← p
  manyWhile (fun ls => (front ls).isMark ",") (do return (← mark ",") :: (← p)) limit first.toArray

def sourceText (before : List Lexeme) (stop : Nat) : String :=
  match before with
  | [] => ""
  | first :: rest =>
    (rest.takeWhile (·.start < stop)).foldl (fun text l => text ++ l.gap ++ l.text) first.text

end Parser

end ArchLint.Java
