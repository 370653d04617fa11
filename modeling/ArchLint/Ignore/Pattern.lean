/-!
# Ignore patterns

The patterns of ignore files. A star does not match a separator; `**` between separators stands
for any number of directories; braces hold alternatives and a backslash takes the character after
it literally.
-/

namespace ArchLint.Ignore

inductive Token where
  | literal (c : Char)
  | anyChar
  | star
  | leadingDirectories
  | everythingInside
  | directories
  | oneOf (negated : Bool) (ranges : List (Char × Char))
  | alternatives (branches : List (List Token))
  deriving Inhabited

/-- The members of a set after its opening. The last member starts a range if `open_` is set. -/
def setTail (first open_ : Bool) (ranges : List (Char × Char)) :
    List Char → Option (List (Char × Char) × List Char)
  | [] => none
  | c :: cs =>
    if c = ']' && !first then
      some ((if open_ then ('-', '-') :: ranges else ranges).reverse, cs)
    else if c = '-' && !first && !open_ then setTail false true ranges cs
    else if open_ then
      match ranges with
      | (a, _) :: ranges => if c < a then none else setTail false false ((a, c) :: ranges) cs
      | [] => none
    else setTail false false ((c, c) :: ranges) cs

def set? : List Char → Option (Token × List Char)
  | '!' :: cs | '^' :: cs =>
    (setTail true false [] cs).map fun (ranges, rest) => (.oneOf true ranges, rest)
  | cs => (setTail true false [] cs).map fun (ranges, rest) => (.oneOf false ranges, rest)

structure Frame where
  before : List Token
  branches : List (List Token)

/-- What two stars stand for. `done` holds the tokens so far, last first; `depth` is the number
of open braces. Gives the tokens and the text after the stars. -/
def doubleStar (done : List Token) (before : Option Char) (depth : Nat) (cs : List Char) :
    List Token × List Char :=
  let plain := (.star :: .star :: done, cs)
  match done with
  | [] =>
    match cs with
    | [] => ([.leadingDirectories], [])
    | '/' :: rest => ([.leadingDirectories], rest)
    | _ => plain
  | last :: earlier =>
    if before ≠ some '/' && (depth = 0 || (before ≠ some ',' && before ≠ some '\x7b')) then plain
    else
      let replaced (token : Token) : List Token :=
        match last with
        | .leadingDirectories | .everythingInside => last :: earlier
        | _ => token :: earlier
      match cs with
      | [] => (replaced .everythingInside, [])
      | '/' :: rest => (replaced .directories, rest)
      | c :: _ =>
        if depth > 0 && (c = ',' || c = '\x7d') then (replaced .everythingInside, cs) else plain

def readTokens : Nat → Option Char → List Frame → List Token → List Char → Option (List Token)
  | 0, _, _, _, _ => none
  | _ + 1, _, [], done, [] => some done.reverse
  | _ + 1, _, _ :: _, _, [] => none
  | fuel + 1, before, frames, done, c :: cs =>
    let next (token : Token) := readTokens fuel (some c) frames (token :: done)
    match c with
    | '?' => next .anyChar cs
    | '*' =>
      match cs with
      | '*' :: cs =>
        let (done, rest) := doubleStar done before frames.length cs
        readTokens fuel (some (if rest.length < cs.length then '/' else '*')) frames done rest
      | cs => next .star cs
    | '[' =>
      match set? cs with
      | some (token, rest) => readTokens fuel (some ']') frames (token :: done) rest
      | none => none
    | '\\' =>
      match cs with
      | c :: cs => readTokens fuel (some c) frames (.literal c :: done) cs
      | [] => none
    | '\x7b' => readTokens fuel (some c) (⟨done, []⟩ :: frames) [] cs
    | '\x7d' =>
      match frames with
      | ⟨outer, branches⟩ :: frames =>
        readTokens fuel (some c) frames
          (.alternatives (done.reverse :: branches).reverse :: outer) cs
      | [] => none
    | ',' =>
      match frames with
      | ⟨outer, branches⟩ :: frames =>
        readTokens fuel (some c) (⟨outer, done.reverse :: branches⟩ :: frames) [] cs
      | [] => next (.literal c) cs
    | c => next (.literal c) cs

def parseTokens? (pattern : List Char) : Option (List Token) :=
  readTokens (pattern.length + 1) none [] [] pattern

-- What follows a token has to accept what the token leaves.

def withinName : List Char → List (List Char)
  | [] => [[]]
  | c :: cs => (c :: cs) :: if c = '/' then [] else withinName cs

def afterSeparator : List Char → List (List Char)
  | [] => []
  | c :: cs => if c = '/' then cs :: afterSeparator cs else afterSeparator cs

def anywhere : List Char → List (List Char)
  | [] => [[]]
  | c :: cs => (c :: cs) :: anywhere cs

mutual

def Token.accepts (following : List Char → Bool) : Token → List Char → Bool
  | .literal d, c :: cs => c = d && following cs
  | .anyChar, c :: cs => c ≠ '/' && following cs
  | .oneOf negated ranges, c :: cs =>
    (negated != ranges.any fun (a, b) => a ≤ c && c ≤ b) && following cs
  | .star, cs => (withinName cs).any following
  | .leadingDirectories, cs => following cs || (afterSeparator cs).any following
  | .everythingInside, '/' :: cs => (anywhere cs).any following
  | .directories, '/' :: cs => following cs || (afterSeparator cs).any following
  | .alternatives branches, cs => acceptsAny following branches cs
  | _, _ => false

def acceptsAll (following : List Char → Bool) : List Token → List Char → Bool
  | [], cs => following cs
  | t :: ts, cs => t.accepts (acceptsAll following ts) cs

def acceptsAny (following : List Char → Bool) : List (List Token) → List Char → Bool
  | [], _ => false
  | b :: bs, cs => acceptsAll following b cs || acceptsAny following bs cs

end

def matchesPath (tokens : List Token) (path : List Char) : Bool :=
  match tokens with
  | [.leadingDirectories] => true
  | tokens => acceptsAll List.isEmpty tokens path

end ArchLint.Ignore
