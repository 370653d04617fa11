import ArchLint.Java.Concrete
import ArchLint.Text.Identifier

/-!
# Lexemes

A source file as a sequence of lexemes. Each takes the longest text it can, with one exception:
`>` always stands alone, because only the parser knows whether `>>` closes two lists of type
arguments or shifts. Text between quotes is cut into fragments, escapes and embedded
expressions. Whatever belongs to no lexeme becomes a `stray` one.
-/

namespace ArchLint.Java

inductive LexemeKind where
  | word
  | literal (kind : Kind)
  | punctuation
  | quote
  | fragment (kind : Kind)
  | escape
  | stray
  | endOfFile
  deriving DecidableEq, Repr, Inhabited

structure Lexeme where
  kind : LexemeKind
  text : String
  line : Nat
  start : Nat
  gap : String
  comments : List Cst
  deriving Repr, Inhabited

namespace Lexeme

def stop (l : Lexeme) : Nat :=
  l.start + l.text.length

def isWordStart (c : Char) : Bool :=
  c = '_' || c = '$' || Text.identifierStart.contains c

def isWordPart (c : Char) : Bool :=
  c = '_' || c = '$' || c.toNat = 0xA2 || Text.identifierContinue.contains c

def isSpace (c : Char) : Bool :=
  c = ' ' || (9 ≤ c.toNat && c.toNat ≤ 13)

def isBinaryDigit (c : Char) : Bool :=
  c = '0' || c = '1'

def isOctalDigit (c : Char) : Bool :=
  '0' ≤ c && c ≤ '7'

def isHexDigit (c : Char) : Bool :=
  c.isDigit || ('a' ≤ c && c ≤ 'f') || ('A' ≤ c && c ≤ 'F')

-- A scanner gives the number of characters it takes from the front of a text.

abbrev Scanner := List Char → Option Nat

namespace Scanner

def one (p : Char → Bool) : Scanner
  | c :: _ => if p c then some 1 else none
  | [] => none

def andThen (a b : Scanner) : Scanner := fun cs =>
  (a cs).bind fun n => (b (cs.drop n)).map (n + ·)

def optional (a : Scanner) : Scanner := fun cs =>
  some ((a cs).getD 0)

def orElse (a b : Scanner) : Scanner := fun cs =>
  (a cs).orElse fun _ => b cs

def many1 (p : Char → Bool) : Scanner := fun cs =>
  match (cs.takeWhile p).length with
  | 0 => none
  | n + 1 => some (n + 1)

def repeated (a : Scanner) : Nat → Scanner
  | 0, _ => some 0
  | fuel + 1, cs =>
    match a cs with
    | none | some 0 => some 0
    | some n => (repeated a fuel (cs.drop n)).map (n + ·)

def many (a : Scanner) : Scanner := fun cs =>
  repeated a cs.length cs

def grouped (p : Char → Bool) : Scanner :=
  (many1 p).andThen (many ((one (· = '_')).andThen (many1 p)))

def decimal : Scanner :=
  (one (· = '0')).orElse
    ((one fun c => c.isDigit && c ≠ '0').andThen
      (optional ((optional (one (· = '_'))).andThen
        ((many1 Char.isDigit).andThen (many ((many1 (· = '_')).andThen (many1 Char.isDigit)))))))

def sign : Scanner := optional (one fun c => c = '+' || c = '-')

def longSuffix : Scanner := optional (one fun c => c = 'l' || c = 'L')

def isFloatSuffix (c : Char) : Bool :=
  c = 'f' || c = 'F' || c = 'd' || c = 'D'

def exponent : Scanner :=
  (one fun c => c = 'e' || c = 'E').andThen (sign.andThen (grouped Char.isDigit))

def radixMark (lower upper : Char) : Scanner :=
  (one (· = '0')).andThen (one fun c => c = lower || c = upper)

def decimalInteger : Scanner := decimal.andThen longSuffix

def hexInteger : Scanner := (radixMark 'x' 'X').andThen ((grouped isHexDigit).andThen longSuffix)

def octalInteger : Scanner :=
  ((radixMark 'o' 'O').orElse (one (· = '0'))).andThen ((grouped isOctalDigit).andThen longSuffix)

def binaryInteger : Scanner :=
  (radixMark 'b' 'B').andThen ((grouped isBinaryDigit).andThen longSuffix)

def decimalFloat : List Scanner :=
  let point := one (· = '.')
  let digits := grouped Char.isDigit
  let suffix := one isFloatSuffix
  [ digits.andThen (point.andThen ((optional digits).andThen
      ((optional exponent).andThen (optional suffix)))),
    point.andThen (digits.andThen ((optional exponent).andThen (optional suffix))),
    decimal.andThen (exponent.andThen (optional suffix)),
    decimal.andThen ((optional exponent).andThen suffix) ]

def hexFloat : Scanner :=
  let point := one (· = '.')
  let digits := grouped isHexDigit
  let power := (one fun c => c = 'p' || c = 'P').andThen
    (sign.andThen (decimal.andThen (optional (one isFloatSuffix))))
  (radixMark 'x' 'X').andThen
    ((((optional digits).andThen (point.andThen digits)).orElse
      (digits.andThen (optional point))).andThen (optional power))

/-- The kinds of number, each with a scanner for it. -/
def numbers : List (Kind × Scanner) :=
  [ (.decimalIntegerLiteral, decimalInteger), (.hexIntegerLiteral, hexInteger),
    (.octalIntegerLiteral, octalInteger), (.binaryIntegerLiteral, binaryInteger) ] ++
  decimalFloat.map (.decimalFloatingPointLiteral, ·) ++
  [(.hexFloatingPointLiteral, hexFloat)]

end Scanner

def isNumberPart (c : Char) : Bool :=
  c.isAlphanum || c = '_' || c = '.' || c = '+' || c = '-'

def number (cs : List Char) : Option (Kind × Nat) :=
  let part := cs.takeWhile isNumberPart
  Scanner.numbers.foldl (fun best (kind, scan) =>
    match best, scan part with
    | some (k, n), some m => if n < m then some (kind, m) else some (k, n)
    | none, some m => some (kind, m)
    | best, none => best) none

def characterTail : List Char → Option Nat
  | '\'' :: _ => some 1
  | '\\' :: _ :: cs => (characterTail cs).map (· + 2)
  | '\n' :: _ => none
  | _ :: cs => (characterTail cs).map (· + 1)
  | [] => none

def character : List Char → Option Nat
  | '\'' :: '\'' :: _ => none
  | '\'' :: cs => (characterTail cs).map (· + 1)
  | _ => none

def escape : List Char → Option Nat
  | '\\' :: 'x' :: a :: b :: _ => if isHexDigit a && isHexDigit b then some 4 else none
  | '\\' :: 'u' :: '\x7b' :: cs =>
    match cs.dropWhile isHexDigit with
    | '\x7d' :: _ =>
      match (cs.takeWhile isHexDigit).length with
      | 0 => none
      | n + 1 => some (n + 5)
    | _ => none
  | '\\' :: 'u' :: cs =>
    if (cs.take 4).length = 4 && (cs.take 4).all isHexDigit then some 6 else none
  | '\\' :: 'x' :: _ => none
  | '\\' :: c :: cs =>
    if isOctalDigit c then some (2 + ((cs.take 2).takeWhile isOctalDigit).length) else some 2
  | _ => none

/-- Punctuation of more than one character, longest first. -/
def longPunctuation : List (List Char) :=
  ["<<=", "...", "->", "::", "++", "--", "&&", "||", "==", "!=", "<=", "+=", "-=", "*=", "/=",
    "&=", "|=", "^=", "%=", "<<"].map String.toList

def shortPunctuation : List Char :=
  "()\x7b\x7d[];,.@=<>!~?:+-*/&|^%".toList

def punctuationLength (cs : List Char) : Option Nat :=
  match longPunctuation.find? (·.isPrefixOf cs) with
  | some p => some p.length
  | none =>
    match cs with
    | c :: _ => if shortPunctuation.contains c then some 1 else none
    | [] => none

def commentTail (n : Nat) : List Char → Option Nat
  | '*' :: '/' :: _ => some (n + 2)
  | _ :: cs => commentTail (n + 1) cs
  | [] => none

def comment : List Char → Option (Kind × Nat)
  | '/' :: '/' :: cs => some (.lineComment, (cs.takeWhile (· ≠ '\n')).length + 2)
  | '/' :: '*' :: cs => (commentTail 2 cs).map (.blockComment, ·)
  | _ => none

/-- What surrounds the present position: quotes, or an expression embedded between quotes in which
`depth` braces are open. -/
inductive Frame where
  | quoted (triple : Bool)
  | embedded (depth : Nat)
  deriving DecidableEq, Repr

/-- A position in the file with the text that is left. -/
structure Cursor where
  rest : List Char
  start : Nat
  line : Nat
  deriving Inhabited

namespace Cursor

def take (c : Cursor) (n : Nat) : List Char × Cursor :=
  let taken := c.rest.take n
  (taken, ⟨c.rest.drop n, c.start + taken.length, c.line + taken.count '\n'⟩)

/-- Skips blanks and comments; gives them as text, and the comments as nodes. -/
def skipGap : Nat → Cursor → String → Array Cst → String × List Cst × Cursor
  | 0, c, gap, comments => (gap, comments.toList, c)
  | fuel + 1, c, gap, comments =>
    let blanks := (c.rest.takeWhile isSpace).length
    if 0 < blanks then
      let (taken, c) := c.take blanks
      skipGap fuel c (gap ++ String.ofList taken) comments
    else
      match comment c.rest with
      | none => (gap, comments.toList, c)
      | some (kind, n) =>
        let (taken, next) := c.take n
        let text := String.ofList taken
        skipGap fuel next (gap ++ text) (comments.push (.node kind none c.line text []))

end Cursor

def nextCode (cs : List Char) : LexemeKind × Nat :=
  match cs with
  | [] => (.endOfFile, 0)
  | c :: rest =>
    if isWordStart c then (.word, (rest.takeWhile isWordPart).length + 1)
    else if c = '"' then (.quote, if ['"', '"'].isPrefixOf rest then 3 else 1)
    else if c = '\'' then
      match character cs with
      | some n => (.literal .characterLiteral, n)
      | none => (.stray, 1)
    else if "@interface".toList.isPrefixOf cs then (.punctuation, 10)
    else
      match number cs with
      | some (kind, n) => (.literal kind, n)
      | none =>
        match punctuationLength cs with
        | some n => (.punctuation, n)
        | none => (.stray, 1)

/-- The kind and length of the next lexeme between quotes. -/
def nextQuoted (triple : Bool) (cs : List Char) : LexemeKind × Nat :=
  match cs with
  | [] => (.endOfFile, 0)
  | '\\' :: '\x7b' :: _ => (.punctuation, 2)
  | '\\' :: rest =>
    match escape cs with
    | some n => (.escape, n)
    | none => if triple && rest ≠ [] then (.escape, 2) else (.stray, 1)
  | '"' :: rest =>
    if triple then
      if ['"', '"'].isPrefixOf rest then (.quote, 3)
      else
        let isPlain (c : Char) : Bool := c ≠ '"' && c ≠ '\\'
        (.fragment .multilineStringFragment, (rest.takeWhile isPlain).length + 1)
    else (.quote, 1)
  | _ :: rest =>
    let isPlain (c : Char) : Bool := c ≠ '"' && c ≠ '\\'
    (.fragment (if triple then .multilineStringFragment else .stringFragment),
      (rest.takeWhile isPlain).length + 1)

def nextFrames (kind : LexemeKind) (text : List Char) : List Frame → List Frame
  | .quoted triple :: outer =>
    match kind with
    | .quote => outer
    | .punctuation => .embedded 0 :: .quoted triple :: outer
    | _ => .quoted triple :: outer
  | frames =>
    match kind, text, frames with
    | .quote, _, _ => .quoted (text.length = 3) :: frames
    | .punctuation, ['\x7b'], .embedded depth :: outer => .embedded (depth + 1) :: outer
    | .punctuation, ['\x7d'], .embedded (depth + 1) :: outer => .embedded depth :: outer
    | .punctuation, ['\x7d'], .embedded 0 :: outer => outer
    | _, _, _ => frames

/-- Cuts the text at the cursor into lexemes, the last of which marks the end. -/
def scan : Nat → List Frame → Cursor → Array Lexeme → Array Lexeme
  | 0, _, _, done => done
  | fuel + 1, frames, c, done =>
    let (gap, comments, c) :=
      match frames with
      | .quoted _ :: _ => ("", [], c)
      | _ => c.skipGap (fuel + 1) "" #[]
    let (kind, n) :=
      match frames with
      | .quoted triple :: _ => nextQuoted triple c.rest
      | _ => nextCode c.rest
    let (taken, next) := c.take n
    let done := done.push
      { kind, text := String.ofList taken, line := c.line, start := c.start
        gap, comments }
    if kind = .endOfFile then done else scan fuel (nextFrames kind taken frames) next done

end Lexeme

/-- The lexemes of a file; a byte order mark at its start is not part of the text. -/
def lexemes (source : String) : List Lexeme :=
  let cs := match source.toList with
    | '\uFEFF' :: rest => rest
    | cs => cs
  (Lexeme.scan (cs.length + 1) [] ⟨cs, 0, 1⟩ #[]).toList

end ArchLint.Java
