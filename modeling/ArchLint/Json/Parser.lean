import ArchLint.Json
import ArchLint.Text.Hex

/-!
# Reading JSON
-/

namespace ArchLint.Json

open Text (hexNumber)

abbrev Reader := StateT (List Char) Option

namespace Reader

def refuse {α : Type} : Reader α := fun _ => none

def isSpace (c : Char) : Bool :=
  c = ' ' || c = '\n' || c = '\t' || c = '\r'

def peek : Reader (Option Char) := fun cs =>
  let cs := cs.dropWhile isSpace
  some (cs.head?, cs)

def exactly (text : String) : Reader Unit := fun cs =>
  (text.toList.isPrefixOf? cs).map ((), ·)

def mark (c : Char) : Reader Unit := fun cs =>
  match cs.dropWhile isSpace with
  | d :: rest => if c = d then some ((), rest) else none
  | [] => none

def isHighSurrogate (n : Nat) : Bool := 0xD800 ≤ n && n < 0xDC00

def isLowSurrogate (n : Nat) : Bool := 0xDC00 ≤ n && n < 0xE000

/-- A string of which some characters are read. -/
structure Progress where
  done : List Char := []
  pending : Option Nat := none
  readable : Bool := true

def Progress.push (s : Progress) (c : Char) : Progress :=
  ⟨c :: s.done, none, s.readable && s.pending.isNone⟩

/-- Adds a unit that an escape gives by its number. -/
def Progress.pushUnit (s : Progress) (n : Nat) : Progress :=
  match s.pending with
  | some high =>
    if isLowSurrogate n then
      { s with
        done := Char.ofNat (0x10000 + (high - 0xD800) * 0x400 + (n - 0xDC00)) :: s.done
        pending := none }
    else if isHighSurrogate n then { s with pending := some n, readable := false }
    else { s with done := Char.ofNat n :: s.done, pending := none, readable := false }
  | none =>
    if isHighSurrogate n then { s with pending := some n }
    else if isLowSurrogate n then { s with readable := false }
    else { s with done := Char.ofNat n :: s.done }

def Progress.finish (s : Progress) : Option String :=
  if s.readable && s.pending.isNone then some (String.ofList s.done.reverse) else none

def shortEscape : Char → Option Char
  | '"' => some '"'
  | '\\' => some '\\'
  | '/' => some '/'
  | 'b' => some '\x08'
  | 'f' => some '\x0c'
  | 'n' => some '\n'
  | 'r' => some '\r'
  | 't' => some '\t'
  | _ => none

/-- The rest of a string after its opening quote. The text is missing if it holds half a surrogate
pair. -/
def stringTail (s : Progress) : List Char → Option (Option String × List Char)
  | [] => none
  | '"' :: cs => some (s.finish, cs)
  | '\\' :: 'u' :: a :: b :: c :: d :: cs => do
    stringTail (s.pushUnit (← hexNumber [a, b, c, d])) cs
  | '\\' :: c :: cs => do stringTail (s.push (← shortEscape c)) cs
  | c :: cs => if c.toNat < 0x20 || c = '\\' then none else stringTail (s.push c) cs

def string : Reader (Option String) := do
  mark '"'
  stringTail {}

def digits : Reader (List Char) := fun cs =>
  match cs.takeWhile Char.isDigit with
  | [] => none
  | ds => some (ds, cs.dropWhile Char.isDigit)

def wholeDigits : Reader (List Char)
  | '0' :: c :: cs => if c.isDigit then none else some (['0'], c :: cs)
  | cs => digits cs

def fraction : Reader Bool
  | '.' :: cs => (digits cs).map fun (_, rest) => (true, rest)
  | cs => some (false, cs)

def dropSign : List Char → List Char
  | '+' :: cs | '-' :: cs => cs
  | cs => cs

def exponent : Reader Bool
  | 'e' :: cs | 'E' :: cs => (digits (dropSign cs)).map fun (_, rest) => (true, rest)
  | cs => some (false, cs)

def value10 (ds : List Char) : Nat :=
  ds.foldl (fun n c => 10 * n + (c.toNat - '0'.toNat)) 0

def unsignedNumber : Reader Json := do
  let n := value10 (← wholeDigits)
  let hasFraction ← fraction
  let hasExponent ← exponent
  return if hasFraction || hasExponent || n ≥ Nat.pow 2 64 then .otherNumber else .number n

def number : Reader Json
  | '-' :: cs => (unsignedNumber cs).map fun (_, rest) => (.otherNumber, rest)
  | cs => unsignedNumber cs

def items (value : Reader Json) : Nat → List Json → Reader (List Json)
  | 0, _ => refuse
  | n + 1, done => do
    let v ← value
    match ← peek with
    | some ',' =>
      mark ','
      items value n (v :: done)
    | _ =>
      mark ']'
      return (v :: done).reverse

def members (value : Reader Json) :
    Nat → List (Option String × Json) → Reader (List (Option String × Json))
  | 0, _ => refuse
  | n + 1, done => do
    let key ← string
    mark ':'
    let v ← value
    match ← peek with
    | some ',' =>
      mark ','
      members value n ((key, v) :: done)
    | _ =>
      mark '\x7d'
      return ((key, v) :: done).reverse

def objectOf (members : List (Option String × Json)) : Json :=
  match members.mapM fun (key, v) => key.map (·, v) with
  | some members => .object members
  | none => .unreadable

/-- A value of a text of `limit` characters that nests at most `depth` deep. -/
def value (limit : Nat) : Nat → Reader Json
  | 0 => refuse
  | depth + 1 => do
    match ← peek with
    | some '"' =>
      match ← string with
      | some s => return .string s
      | none => return .unreadable
    | some '[' =>
      mark '['
      match ← peek with
      | some ']' =>
        mark ']'
        return .array []
      | _ => return .array (← items (value limit depth) limit [])
    | some '\x7b' =>
      mark '\x7b'
      match ← peek with
      | some '\x7d' =>
        mark '\x7d'
        return .object []
      | _ => return objectOf (← members (value limit depth) limit [])
    | some 'n' =>
      exactly "null"
      return .null
    | some 't' =>
      exactly "true"
      return .bool true
    | some 'f' =>
      exactly "false"
      return .bool false
    | _ => number

end Reader

/-- The value of a text, unless it is malformed. -/
def parse? (text : String) : Option Json := do
  let cs := text.toList
  let (j, rest) ← Reader.value (cs.length + 1) (cs.length + 1) cs
  if (rest.dropWhile Reader.isSpace).isEmpty then some j else none

end ArchLint.Json
