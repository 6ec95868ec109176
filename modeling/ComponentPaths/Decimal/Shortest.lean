/-
Shortest decimals: the fewest digits that still name a binary fraction.

A finite double is `m * 2 ^ q`. Every real between the midpoints to its two
neighbours reads back as that double, the midpoints themselves exactly when
`m` is even. For one digit, then two, and so on, the two points of the
decimal grid around the value are tried, in exact arithmetic; the first grid
that has a point in the interval gives the digits, and of two points the one
nearer to the value.
-/
namespace ComponentPaths

/-- The number `digits * 10 ^ exponent`. -/
structure Decimal where
  digits : Nat
  exponent : Int
  deriving DecidableEq, Repr

namespace Decimal

/-- A positive binary fraction `significand * 2 ^ exponent`. `narrowBelow` says
that the neighbour below is only half as far as the one above. -/
structure Binary where
  significand : Nat
  exponent : Int
  narrowBelow : Bool
  deriving DecidableEq, Repr

namespace Binary

/-- Numerator of a quarter step at the exponent. -/
def quarterNum (b : Binary) : Nat :=
  Nat.pow 2 (b.exponent - 2).toNat

/-- Denominator of a quarter step at the exponent. -/
def quarterDen (b : Binary) : Nat :=
  Nat.pow 2 (2 - b.exponent).toNat

/-- The value in quarter steps. -/
def middle (b : Binary) : Nat :=
  4 * b.significand

/-- The lower midpoint in quarter steps. -/
def low (b : Binary) : Nat :=
  4 * b.significand - (if b.narrowBelow then 1 else 2)

/-- The upper midpoint in quarter steps. -/
def high (b : Binary) : Nat :=
  4 * b.significand + 2

/-- Whether the decimal `digits * 10 ^ k` reads back as the value. -/
def reads (b : Binary) (digits : Nat) (k : Int) : Bool :=
  let side := b.quarterNum * Nat.pow 10 (-k).toNat
  let point := digits * (Nat.pow 10 k.toNat * b.quarterDen)
  if b.significand % 2 = 0 then b.low * side ≤ point && point ≤ b.high * side
  else b.low * side < point && point < b.high * side

/-- How far `digits * 10 ^ k` is from the value, in a unit that depends on `k` only. -/
def distance (b : Binary) (digits : Nat) (k : Int) : Nat :=
  let value := b.middle * (b.quarterNum * Nat.pow 10 (-k).toNat)
  let point := digits * (Nat.pow 10 k.toNat * b.quarterDen)
  (value - point) + (point - value)

/-- The last grid point that is not above the value. -/
def gridFloor (b : Binary) (k : Int) : Nat :=
  b.middle * (b.quarterNum * Nat.pow 10 (-k).toNat) / (Nat.pow 10 k.toNat * b.quarterDen)

/-- The grid point for `10 ^ k` that reads back; the nearer one of two, and of
two equally near the even one. -/
def onGrid? (b : Binary) (k : Int) : Option Nat :=
  let below := b.gridFloor k
  let above := below + 1
  match b.reads below k, b.reads above k with
  | true, true =>
    if b.distance below k < b.distance above k then some below
    else if b.distance above k < b.distance below k then some above
    else if below % 2 = 0 then some below else some above
  | true, false => some below
  | false, true => some above
  | false, false => none

/-- The decimal exponent of the value's first digit. -/
def magnitude (b : Binary) : Int :=
  let whole := b.gridFloor 0
  if whole > 0 then ((Nat.toDigits 10 whole).length : Int) - 1
  else
    match (List.range 400).find? (fun j : Nat => b.gridFloor (-(j : Int)) > 0) with
    | some j => -(j : Int)
    | none => 0

/-- The shortest decimal that reads back. Seventeen digits are always enough. -/
def shortest (b : Binary) : Decimal :=
  let top := b.magnitude
  let found := (List.range 17).findSome? fun n : Nat =>
    (b.onGrid? (top - n)).map fun digits => (⟨digits, top - n⟩ : Decimal)
  found.getD ⟨b.gridFloor (top - 16), top - 16⟩

end Binary

/-- The unit of the fraction bits of a double. -/
def fractionUnit : Nat :=
  Nat.pow 2 52

/-- The binary fraction of a positive finite double, given by its bits without the sign. -/
def Binary.ofBits (bits : Nat) : Binary :=
  let fraction : Nat := bits % fractionUnit
  let biased : Nat := bits / fractionUnit
  if biased = 0 then ⟨fraction, -1074, false⟩
  else ⟨fractionUnit + fraction, (biased : Int) - 1075, fraction = 0 && biased > 1⟩

end Decimal

end ComponentPaths
