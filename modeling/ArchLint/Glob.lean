/-!
# Exclude patterns

Shell patterns over whole paths. `*`, `?` and sets match separators too; `**` stands for any
number of directories and must be a path component of its own.
-/

namespace ArchLint

structure GlobError where
  position : Nat
  reason : String
  deriving DecidableEq, Repr

def GlobError.message (e : GlobError) : String :=
  "Pattern syntax error near position " ++ toString e.position ++ ": " ++ e.reason

namespace Glob

structure Range where
  first : Char
  last : Char
  deriving DecidableEq, Repr

def Range.contains (r : Range) (c : Char) : Bool :=
  r.first ≤ c && c ≤ r.last

inductive Token where
  | char (c : Char)
  | anyChar
  | oneOf (negated : Bool) (ranges : List Range)
  /-- Any sequence; if `recursive`, one that ends with a separator or with the text. -/
  | sequence (recursive : Bool)
  deriving DecidableEq, Repr

end Glob

structure Glob where
  tokens : List Glob.Token
  deriving DecidableEq, Repr

namespace Glob

def wildcardReason : String := "wildcards are either regular `*` or recursive `**`"

def recursiveReason : String := "recursive wildcards must form a single path component"

def rangeReason : String := "invalid range pattern"

def ranges : List Char → List Range
  | a :: '-' :: b :: cs => ⟨a, b⟩ :: ranges cs
  | c :: cs => ⟨c, c⟩ :: ranges cs
  | [] => []

/-- The members of a set and what follows it; a bracket right after the opening is a member. -/
def splitSet : List Char → Option (List Char × List Char)
  | [] => none
  | first :: cs =>
    match cs.dropWhile (· ≠ ']') with
    | [] => none
    | _ :: rest => some (first :: cs.takeWhile (· ≠ ']'), rest)

def set? : List Char → Option (Token × List Char)
  | '!' :: cs => (splitSet cs).map fun (members, rest) => (.oneOf true (ranges members), rest)
  | cs => (splitSet cs).map fun (members, rest) => (.oneOf false (ranges members), rest)

def read : Nat → Nat → Option Char → List Char → Except GlobError (List Token)
  | 0, _, _, _ => .ok []
  | _ + 1, _, _, [] => .ok []
  | fuel + 1, position, before, c :: cs =>
    let next (token : Token) (taken : Nat) (last : Char) (rest : List Char) :=
      (read fuel (position + taken) (some last) rest).map (token :: ·)
    match c with
    | '?' => next .anyChar 1 c cs
    | '*' =>
      let stars := (cs.takeWhile (· = '*')).length + 1
      let rest := cs.dropWhile (· = '*')
      if stars = 1 then next (.sequence false) 1 c cs
      else if stars > 2 then .error ⟨position + 2, wildcardReason⟩
      else if before.any (· ≠ '/') then .error ⟨position - 1, recursiveReason⟩
      else
        match rest with
        | [] => .ok [.sequence true]
        | '/' :: rest => next (.sequence true) 3 '/' rest
        | _ => .error ⟨position + 2, recursiveReason⟩
    | '[' =>
      match set? cs with
      | some (token, rest) => next token (cs.length + 1 - rest.length) ']' rest
      | none => .error ⟨position, rangeReason⟩
    | c => next (.char c) 1 c cs

def parse (pattern : String) : Except GlobError Glob :=
  (read pattern.length 0 none pattern.toList).map Glob.mk

/-- What may be left of a text after a sequence. -/
def remainders (recursive : Bool) (cs : List Char) : List (List Char) :=
  cs :: after cs
where
  after : List Char → List (List Char)
    | [] => [[]]
    | c :: cs => if recursive && c ≠ '/' then after cs else cs :: after cs

def Token.accepts (c : Char) : Token → Bool
  | .char d => c = d
  | .anyChar => true
  | .oneOf negated ranges => negated != ranges.any (·.contains c)
  | .sequence _ => false

def matchesTokens : List Token → List Char → Bool
  | [], cs => cs.isEmpty
  | .sequence recursive :: ts, cs => (remainders recursive cs).any (matchesTokens ts)
  | _ :: _, [] => false
  | t :: ts, c :: cs => t.accepts c && matchesTokens ts cs

/-- The pattern matches the whole text. -/
def accepts (g : Glob) (text : String) : Bool :=
  matchesTokens g.tokens text.toList

end Glob

end ArchLint
