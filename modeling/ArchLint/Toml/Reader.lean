import ArchLint.Decimal.Shortest
import ArchLint.Text.Hex
import ArchLint.Toml.Value

/-!
# Scalars

Readers for keys, strings, numbers and dates. A reader takes characters from the front of a text
or refuses it.
-/

namespace ArchLint.Toml

abbrev Reader := StateT (List Char) Option

namespace Reader

open Text (hexValue hexNumber)

variable {α : Type}

def refuse : Reader α := fun _ => none

def peek : Reader (Option Char) := fun cs => some (cs.head?, cs)

def one (p : Char → Bool) : Reader Char
  | c :: cs => if p c then some (c, cs) else none
  | [] => none

def exactly (text : String) : Reader Unit := fun cs =>
  (text.toList.isPrefixOf? cs).map ((), ·)

def takeWhile (p : Char → Bool) : Reader (List Char) := fun cs =>
  some (cs.takeWhile p, cs.dropWhile p)

/-- Runs `a`; if it refuses, runs `b` from the same place. -/
def orElse (a b : Reader α) : Reader α := fun cs =>
  match a cs with
  | some r => some r
  | none => b cs

def optional (a : Reader α) : Reader (Option α) := fun cs =>
  match a cs with
  | some (x, rest) => some (some x, rest)
  | none => some (none, cs)

def flag (c : Char) : Reader Bool
  | d :: cs => if d = c then some (true, cs) else some (false, d :: cs)
  | [] => some (false, [])

def atEnd : Reader Bool := fun cs => some (cs.isEmpty, cs)

def isBlank (c : Char) : Bool := c = ' ' || c = '\t'

def blanks : Reader Unit := do
  let _ ← takeWhile isBlank

def newline : Reader Unit
  | '\n' :: cs => some ((), cs)
  | '\r' :: '\n' :: cs => some ((), cs)
  | _ => none

def isText (c : Char) : Bool :=
  c = '\t' || (0x20 ≤ c.toNat && c.toNat ≠ 0x7F)

def comment : Reader Unit := do
  if ← flag '#' then
    let _ ← takeWhile isText

def lineEnd : Reader Unit := do
  blanks
  comment
  if ← atEnd then return else newline

/-- Blanks, comments and newlines, at most `n` lines of them. -/
def spacing : Nat → Reader Unit
  | 0 => pure ()
  | n + 1 => do
    blanks
    comment
    match ← optional newline with
    | some () => spacing n
    | none => return

def hexChar (digits : List Char) : Option Char := do
  let n ← hexNumber digits
  if n.isValidChar then some (Char.ofNat n) else none

def shortEscape : Char → Option Char
  | 'b' => some '\x08'
  | 't' => some '\t'
  | 'n' => some '\n'
  | 'f' => some '\x0c'
  | 'r' => some '\r'
  | '"' => some '"'
  | '\\' => some '\\'
  | _ => none

def basicTail (done : List Char) : List Char → Option (List Char × List Char)
  | [] => none
  | '"' :: cs => some (done.reverse, cs)
  | '\\' :: 'u' :: a :: b :: c :: d :: cs => do
    basicTail ((← hexChar [a, b, c, d]) :: done) cs
  | '\\' :: 'U' :: a :: b :: c :: d :: e :: f :: g :: h :: cs => do
    basicTail ((← hexChar [a, b, c, d, e, f, g, h]) :: done) cs
  | '\\' :: c :: cs => do basicTail ((← shortEscape c) :: done) cs
  | c :: cs => if isText c && c ≠ '\\' then basicTail (c :: done) cs else none

/-- A backslash in front of this text ends the line: only blanks stand before the newline. -/
def endsLine (cs : List Char) : Bool :=
  match cs.dropWhile isBlank with
  | '\n' :: _ => true
  | '\r' :: '\n' :: _ => true
  | _ => false

/-- The rest of a string in three double quotes. After a backslash at the end of a line, blanks
and newlines are skipped. -/
def longBasicTail (skipping : Bool) (done : List Char) :
    List Char → Option (List Char × List Char)
  | [] => none
  | '"' :: '"' :: '"' :: '"' :: '"' :: cs => some (('"' :: '"' :: done).reverse, cs)
  | '"' :: '"' :: '"' :: '"' :: cs => some (('"' :: done).reverse, cs)
  | '"' :: '"' :: '"' :: cs => some (done.reverse, cs)
  | '\r' :: '\n' :: cs => longBasicTail skipping (if skipping then done else '\n' :: done) cs
  | '\n' :: cs => longBasicTail skipping (if skipping then done else '\n' :: done) cs
  | '\\' :: 'u' :: a :: b :: c :: d :: cs => do
    longBasicTail false ((← hexChar [a, b, c, d]) :: done) cs
  | '\\' :: 'U' :: a :: b :: c :: d :: e :: f :: g :: h :: cs => do
    longBasicTail false ((← hexChar [a, b, c, d, e, f, g, h]) :: done) cs
  | '\\' :: c :: cs =>
    if endsLine (c :: cs) then longBasicTail true done (c :: cs)
    else do longBasicTail false ((← shortEscape c) :: done) cs
  | c :: cs =>
    if skipping && isBlank c then longBasicTail true done cs
    else if isText c && c ≠ '\\' then longBasicTail false (c :: done) cs
    else none

def literalTail (done : List Char) : List Char → Option (List Char × List Char)
  | [] => none
  | '\'' :: cs => some (done.reverse, cs)
  | c :: cs => if isText c then literalTail (c :: done) cs else none

def longLiteralTail (done : List Char) : List Char → Option (List Char × List Char)
  | [] => none
  | '\'' :: '\'' :: '\'' :: '\'' :: '\'' :: cs => some (('\'' :: '\'' :: done).reverse, cs)
  | '\'' :: '\'' :: '\'' :: '\'' :: cs => some (('\'' :: done).reverse, cs)
  | '\'' :: '\'' :: '\'' :: cs => some (done.reverse, cs)
  | '\r' :: '\n' :: cs => longLiteralTail ('\n' :: done) cs
  | '\n' :: cs => longLiteralTail ('\n' :: done) cs
  | c :: cs => if isText c then longLiteralTail (c :: done) cs else none

def shortString : Reader String := fun cs =>
  match cs with
  | '"' :: cs => (basicTail [] cs).map fun (s, rest) => (String.ofList s, rest)
  | '\'' :: cs => (literalTail [] cs).map fun (s, rest) => (String.ofList s, rest)
  | _ => none

/-- A newline right after the opening quotes does not count. -/
def dropNewline : List Char → List Char
  | '\n' :: cs => cs
  | '\r' :: '\n' :: cs => cs
  | cs => cs

def string : Reader String := fun cs =>
  match cs with
  | '"' :: '"' :: '"' :: cs =>
    (longBasicTail false [] (dropNewline cs)).map fun (s, rest) => (String.ofList s, rest)
  | '\'' :: '\'' :: '\'' :: cs =>
    (longLiteralTail [] (dropNewline cs)).map fun (s, rest) => (String.ofList s, rest)
  | cs => shortString cs

def isBareKey (c : Char) : Bool :=
  c.isAlphanum || c = '_' || c = '-'

def simpleKey : Reader String := do
  match ← peek with
  | some '"' | some '\'' => shortString
  | _ =>
    let cs ← takeWhile isBareKey
    if cs.isEmpty then refuse else return String.ofList cs

/-- What may nest, be it values or the parts of a key, does so less than this deep. -/
def depthLimit : Nat := 80

def dottedKey : Nat → Reader (List String)
  | 0 => refuse
  | n + 1 => do
    blanks
    let part ← simpleKey
    blanks
    if ← flag '.' then return part :: (← dottedKey n) else return [part]

def key : Reader (List String) :=
  dottedKey (depthLimit - 1)

def digitsTail (p : Char → Bool) : List Char → List Char → Option (List Char × List Char)
  | done, '_' :: c :: cs => if p c then digitsTail p (c :: done) cs else none
  | _, ['_'] => none
  | done, c :: cs => if p c then digitsTail p (c :: done) cs else some (done.reverse, c :: cs)
  | done, [] => some (done.reverse, [])

def digits (p : Char → Bool) : Reader (List Char) := fun cs =>
  match cs with
  | c :: cs => if p c then digitsTail p [c] cs else none
  | [] => none

def plainDigits : Reader (List Char) := fun cs =>
  match cs with
  | '0' :: cs => some (['0'], cs)
  | cs => digits Char.isDigit cs

def valueOf (base : Nat) (ds : List Char) : Nat :=
  ds.foldl (fun n c => base * n + (hexValue c).getD 0) 0

def sign : Reader Bool := do
  if ← flag '-' then return true
  let _ ← flag '+'
  return false

def inRange (n : Int) : Reader Int :=
  if -Int.pow 2 63 ≤ n ∧ n < Int.pow 2 63 then pure n else refuse

def isDigitOf (base : Nat) (c : Char) : Bool :=
  (hexValue c).any (· < base)

def integer : Reader Int := fun cs =>
  let based (base : Nat) : Reader Int := do
    inRange (valueOf base (← digits (isDigitOf base)))
  match cs with
  | '0' :: 'x' :: cs => based 16 cs
  | '0' :: 'o' :: cs => based 8 cs
  | '0' :: 'b' :: cs => based 2 cs
  | cs => (do
      let negative ← sign
      let n := valueOf 10 (← plainDigits)
      inRange (if negative then -(n : Int) else n)) cs

def exponent : Reader Int := do
  let _ ← one fun c => c = 'e' || c = 'E'
  let negative ← sign
  let n := valueOf 10 (← digits Char.isDigit)
  return if negative then -(n : Int) else n

def fraction : Reader (List Char) := do
  exactly "."
  digits Char.isDigit

def signed (negative : Bool) (x : Float) : Float :=
  if negative then -x else x

/-- A number with a fraction or an exponent. One too great for a double is refused, unless it is
negative. -/
def finiteFloat : Reader Float := do
  let negative ← sign
  let whole ← plainDigits
  let fraction ← optional fraction
  let exponent ← optional exponent
  if fraction.isNone && exponent.isNone then refuse
  let places := fraction.getD []
  let x := Decimal.toFloat
    ⟨valueOf 10 (whole ++ places), exponent.getD 0 - (places.length : Int)⟩
  if !negative && x.isInf then refuse else return signed negative x

def specialFloat : Reader Float := do
  let negative ← sign
  let x ← orElse (do exactly "inf"; return Float.ofBits 0x7FF0000000000000)
    (do exactly "nan"; return Float.ofBits 0x7FF8000000000000)
  return signed negative x

def fixedDigits (n : Nat) : Reader Nat := fun cs =>
  let ds := cs.take n
  if ds.length = n && ds.all Char.isDigit then some (valueOf 10 ds, cs.drop n) else none

def date : Reader Date := do
  let year ← fixedDigits 4
  exactly "-"
  let month ← fixedDigits 2
  exactly "-"
  let day ← fixedDigits 2
  let d : Date := ⟨year, month, day⟩
  if d.isValid then return d else refuse

/-- A fraction of a second, of which nine digits count. -/
def nanoseconds : Reader Nat := do
  exactly "."
  let ds ← takeWhile Char.isDigit
  if ds.isEmpty then refuse
  return valueOf 10 ((ds ++ List.replicate 9 '0').take 9)

def time : Reader Time := do
  let hour ← fixedDigits 2
  exactly ":"
  let minute ← fixedDigits 2
  exactly ":"
  let second ← fixedDigits 2
  let fraction ← optional nanoseconds
  let t : Time := ⟨hour, minute, second, fraction.getD 0⟩
  if t.isValid then return t else refuse

def offset : Reader Offset := do
  match ← peek with
  | some 'Z' | some 'z' =>
    let _ ← one fun _ => true
    return .universal
  | some '+' | some '-' =>
    let negative ← sign
    let hour ← fixedDigits 2
    exactly ":"
    let minute ← fixedDigits 2
    if hour ≤ 23 ∧ minute ≤ 59 then
      let n : Int := 60 * hour + minute
      return .minutes (if negative then -n else n)
    else refuse
  | _ => refuse

def timeOfDate : Reader (Time × Option Offset) := do
  let _ ← one fun c => c = 'T' || c = 't' || c = ' '
  let t ← time
  return (t, ← optional offset)

def datetime : Reader Datetime :=
  orElse
    (do
      let d ← date
      match ← optional timeOfDate with
      | some (t, offset) => return .both d t offset
      | none => return .date d)
    (do return .time (← time))

def numeric : Reader Value :=
  orElse (do return .datetime (← datetime))
    (orElse (do return .float (← finiteFloat))
      (orElse (do return .float (← specialFloat)) (do return .integer (← integer))))

end Reader

end ArchLint.Toml
