import ArchLint.Text.Segment

/-!
# Paths

File paths as text, and the sequence of components that the text denotes. Repeated separators
and inner dots are spelling only: two paths with the same components compare equal.
-/

namespace ArchLint

structure Path where
  text : String
  deriving DecidableEq, Repr, Inhabited

namespace Path

inductive Component where
  | root
  | current
  | parent
  | normal (name : String)
  deriving DecidableEq, Repr

/-- How a path begins: at the root, at an explicit dot, or at its first name. -/
inductive Lead where
  | absolute
  | dotted
  | plain
  deriving DecidableEq, Repr

/-- Segments that denote no component: nothing between two separators, and a dot. -/
def isVoid (segment : List Char) : Bool :=
  segment = [] || segment = ['.']

def parts (p : Path) : Lead × List (List Char) :=
  match p.text.toList with
  | '/' :: rest => (.absolute, Text.segments '/' rest)
  | cs =>
    match Text.segments '/' cs with
    | ['.'] :: rest => (.dotted, rest)
    | segments => (.plain, segments)

def Component.ofSegment (segment : List Char) : Option Component :=
  if isVoid segment then none
  else if segment = ['.', '.'] then some .parent
  else some (.normal (String.ofList segment))

def Lead.component : Lead → List Component
  | .absolute => [.root]
  | .dotted => [.current]
  | .plain => []

def components (p : Path) : List Component :=
  p.parts.1.component ++ p.parts.2.filterMap Component.ofSegment

/-- The text ends in a separator or in a lone dot after one, so that it can only lead to a
directory. -/
def endsOpen (p : Path) : Bool :=
  p.parts.2.getLast?.any isVoid

def isAbsolute (p : Path) : Bool :=
  p.parts.1 = .absolute

/-- `p / q`: an absolute `q` replaces `p`. -/
def join (p q : Path) : Path :=
  if q.isAbsolute then q
  else if p.text.isEmpty || p.text.toList.getLast? = some '/' then ⟨p.text ++ q.text⟩
  else ⟨p.text ++ "/" ++ q.text⟩

def dropNamed : Nat → List (List Char) → List (List Char)
  | 0, segments => segments
  | _ + 1, [] => []
  | n + 1, s :: segments =>
    if isVoid s then dropNamed (n + 1) segments else dropNamed n segments

def dropVoidEnd (segments : List (List Char)) : List (List Char) :=
  (segments.reverse.dropWhile isVoid).reverse

/-- The path after its first `n` components, in its own spelling but without void segments at the
end, nor at the start once something was dropped. -/
def dropComponents (n : Nat) (p : Path) : Path :=
  let (lead, segments) := p.parts
  let body (k : Nat) :=
    String.ofList (Text.joinSegments '/' ((dropVoidEnd (dropNamed k segments)).dropWhile isVoid))
  match n, lead with
  | 0, .plain => ⟨String.ofList (Text.joinSegments '/' (dropVoidEnd segments))⟩
  | 0, .absolute => ⟨"/" ++ String.ofList (Text.joinSegments '/' (dropVoidEnd segments))⟩
  | 0, .dotted => ⟨String.ofList (Text.joinSegments '/' (['.'] :: dropVoidEnd segments))⟩
  | k + 1, .plain => ⟨body (k + 1)⟩
  | k + 1, _ => ⟨body k⟩

/-- The rest of `p` below `base`, if `p` lies there. -/
def relativeTo? (p base : Path) : Option Path :=
  if base.components.isPrefixOf p.components then some (p.dropComponents base.components.length)
  else none

def relativeTo (p base : Path) : Path :=
  (p.relativeTo? base).getD p

def fileName? (p : Path) : Option String :=
  match p.components.getLast? with
  | some (.normal name) => some name
  | _ => none

def extension? (p : Path) : Option String :=
  match p.fileName? with
  | none => none
  | some name =>
    let reversed := name.toList.reverse
    match reversed.dropWhile (· ≠ '.') with
    | [] => none
    | [_] => none
    | _ :: _ :: _ => some (String.ofList (reversed.takeWhile (· ≠ '.')).reverse)

def Component.rank : Component → Nat
  | .root => 0
  | .current => 1
  | .parent => 2
  | .normal _ => 3

def Component.compare : Component → Component → Ordering
  | .normal a, .normal b => compareOfLessAndEq a b
  | a, b => Ord.compare a.rank b.rank

def compareComponents : List Component → List Component → Ordering
  | [], [] => .eq
  | [], _ :: _ => .lt
  | _ :: _, [] => .gt
  | a :: as, b :: bs => (a.compare b).then (compareComponents as bs)

def compare (p q : Path) : Ordering :=
  compareComponents p.components q.components

end Path

end ArchLint
