/-!
# Character sets

A set of code points as the sorted list of its boundaries: the points where membership changes.
-/

namespace ArchLint.Text

structure CharSet where
  /-- A code point is a member when an odd number of boundaries lie at or below it. -/
  boundaries : Array Nat

namespace CharSet

def rankBetween (s : CharSet) (n lo hi : Nat) : Nat :=
  if lo < hi then
    let mid := (lo + hi) / 2
    if s.boundaries.getD mid 0 ≤ n then rankBetween s n (mid + 1) hi else rankBetween s n lo mid
  else lo
termination_by hi - lo

def contains (s : CharSet) (c : Char) : Bool :=
  s.rankBetween c.toNat 0 s.boundaries.size % 2 = 1

end CharSet

end ArchLint.Text
