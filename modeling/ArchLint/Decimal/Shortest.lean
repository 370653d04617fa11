/-!
# Shortest decimals

The decimal with the fewest digits that still denotes a given binary number: the one on the
coarsest grid of powers of ten that has a point within the interval of reals that round to it.
-/

namespace ArchLint

structure Binary where
  mantissa : Nat
  exponent : Int
  deriving DecidableEq, Repr

structure Decimal where
  digits : Nat
  exponent : Int
  deriving DecidableEq, Repr

namespace Binary

/-- The magnitude of a finite double, given by its bits. -/
def ofBits (bits : Nat) : Binary :=
  let fraction := bits % Nat.pow 2 52
  let power : Nat := bits / Nat.pow 2 52 % Nat.pow 2 11
  if power = 0 then ⟨fraction, -1074⟩ else ⟨Nat.pow 2 52 + fraction, (power : Int) - 1075⟩

def isLeastOfBinade (b : Binary) : Bool :=
  b.mantissa = Nat.pow 2 52 && b.exponent > -1074

/-- Four times the ends of the interval that rounds to the number, in units of `2 ^ exponent`. -/
def low (b : Binary) : Nat :=
  if b.isLeastOfBinade then 4 * b.mantissa - 1 else 4 * b.mantissa - 2

def high (b : Binary) : Nat :=
  4 * b.mantissa + 2

end Binary

namespace Decimal

def compareScaled (a : Nat) (k : Int) (n : Nat) (j : Int) : Ordering :=
  compare (a * Nat.pow 10 k.toNat * Nat.pow 2 (-j).toNat)
    (n * Nat.pow 2 j.toNat * Nat.pow 10 (-k).toNat)

def denotes (d : Decimal) (b : Binary) : Bool :=
  let fromLow := compareScaled d.digits d.exponent b.low (b.exponent - 2)
  let fromHigh := compareScaled d.digits d.exponent b.high (b.exponent - 2)
  if b.mantissa % 2 = 0 then fromLow != .lt && fromHigh != .gt
  else fromLow == .gt && fromHigh == .lt

def gridFloor (b : Binary) (k : Int) : Nat :=
  b.mantissa * Nat.pow 2 b.exponent.toNat * Nat.pow 10 (-k).toNat /
    (Nat.pow 2 (-b.exponent).toNat * Nat.pow 10 k.toNat)

/-- The point of the grid `10 ^ k` that denotes `b`, the nearer one if there are two. -/
def onGrid (b : Binary) (k : Int) : Option Decimal :=
  let below : Decimal := ⟨gridFloor b k, k⟩
  let above : Decimal := ⟨gridFloor b k + 1, k⟩
  match denotes below b, denotes above b with
  | true, true =>
    -- the middle of the two, against the number itself
    if compareScaled (2 * below.digits + 1) k b.mantissa (b.exponent + 1) == .gt then some below
    else some above
  | true, false => some below
  | false, true => some above
  | false, false => none

def grids : List Int :=
  (List.range 660).map fun i : Nat => 309 - (i : Int)

def shortest (b : Binary) : Decimal :=
  (grids.findSome? (onGrid b)).getD ⟨0, 0⟩

def zeros (n : Nat) : String :=
  String.ofList (List.replicate n '0')

def text (d : Decimal) : String :=
  let digits := Nat.toDigits 10 d.digits
  let n := digits.length
  let point : Int := n + d.exponent
  if -3 ≤ point ∧ point ≤ 16 then
    if point ≤ 0 then "0." ++ zeros (-point).toNat ++ String.ofList digits
    else if point < n then
      String.ofList (digits.take point.toNat) ++ "." ++ String.ofList (digits.drop point.toNat)
    else String.ofList digits ++ zeros (point.toNat - n) ++ ".0"
  else
    (match digits with
    | [] => ""
    | [d] => String.ofList [d]
    | d :: ds => String.ofList [d] ++ "." ++ String.ofList ds) ++
    "e" ++ toString (point - 1)

def floatText (x : Float) : String :=
  let bits := x.toBits.toNat
  let sign := if bits / Nat.pow 2 63 = 1 then "-" else ""
  if bits / Nat.pow 2 52 % Nat.pow 2 11 = Nat.pow 2 11 - 1 then
    if bits % Nat.pow 2 52 = 0 then sign ++ "inf" else "NaN"
  else
    let b := Binary.ofBits bits
    if b.mantissa = 0 then sign ++ "0.0" else sign ++ (shortest b).text

def toFloat (d : Decimal) : Float :=
  let size : Int := (Nat.toDigits 10 d.digits).length + d.exponent
  if d.digits = 0 ∨ size < -400 then 0
  else if size > 400 then Float.ofBits 0x7FF0000000000000
  else Float.ofScientific d.digits (d.exponent < 0) d.exponent.natAbs

end Decimal

end ArchLint
