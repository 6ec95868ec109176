/-
Floating point numbers written with a given count of digits.

All rounding is of the exact value and goes to the nearest decimal, of two
equally near to the one with the even last digit. There are four styles: all
digits before the point, one digit before the point and an exponent, the
shorter of these two, and hexadecimal digits with a power of two.
-/
import ComponentPaths.Decimal.Floating

namespace ComponentPaths.Floating

/-- The ratio of a significand and an exponent. -/
def ratio (significand : Nat) (exponent : Int) : Nat × Nat :=
  scaled 2 significand 1 exponent

/-- Digits with a point before the last ones of them. A point at the end is
only written where it is asked for. -/
def pointed (alwaysPoint : Bool) (places : Nat) (digits : Text) : Text :=
  let whole := digits.take (digits.length - places)
  let fraction := digits.drop (digits.length - places)
  if fraction.isEmpty && !alwaysPoint then whole else whole ++ '.' :: fraction

/-- Digits with zeros before them, to a count. -/
def padded (count : Nat) (digits : Text) : Text :=
  List.replicate (count - digits.length) '0' ++ digits

/-- An exponent with its sign and at least so many digits. -/
def shownExponent (letter : Char) (least : Nat) (n : Int) : Text :=
  letter :: (if n < 0 then '-' else '+') :: padded least (Text.ofNat n.natAbs)

/-- All digits before the point, and `places` after it. -/
def fixed (alwaysPoint : Bool) (places significand : Nat) (exponent : Int) : Text :=
  let (num, den) := ratio significand exponent
  let digits := Text.ofNat (nearest (num * Nat.pow 10 places) den)
  pointed alwaysPoint places (padded (places + 1) digits)

/-- The exponent of the first decimal digit of a ratio that is not zero. -/
def firstDigit (num den : Nat) : Int :=
  let guess : Int := ((Text.ofNat num).length : Int) - (Text.ofNat den).length
  let (n, d) := scaled 10 num den (-guess)
  if n < d then guess - 1 else guess

/-- The digits of a number, one before the point and `places` after it, and its
exponent. -/
def scientificDigits (places significand : Nat) (exponent : Int) : Text × Int :=
  if significand == 0 then (List.replicate (places + 1) '0', 0)
  else
    let (num, den) := ratio significand exponent
    let first := firstDigit num den
    let (n, d) := scaled 10 num den (places - first)
    let rounded := nearest n d
    if rounded == Nat.pow 10 (places + 1) then
      (Text.ofNat (Nat.pow 10 places), first + 1)
    else (Text.ofNat rounded, first)

/-- One digit before the point, `places` after it, and an exponent. -/
def scientific (alwaysPoint : Bool) (places significand : Nat) (exponent : Int) : Text :=
  let (digits, power) := scientificDigits places significand exponent
  pointed alwaysPoint places digits ++ shownExponent 'e' 2 power

/-- Digits without zeros at the end of the fraction, nor a point there. -/
def withoutEndZeros (t : Text) : Text :=
  if t.contains '.' then
    match Text.dropEndWhile (· == '0') t |>.reverse with
    | '.' :: before => before.reverse
    | shown => shown.reverse
  else t

/-- So many significant digits: with an exponent if that is below minus four or
takes more digits than there are. -/
def general (alwaysPoint : Bool) (precision significand : Nat) (exponent : Int) : Text :=
  let count := max precision 1
  let (digits, power) := scientificDigits (count - 1) significand exponent
  if power < -4 || (count : Int) ≤ power then
    let shown := pointed alwaysPoint (count - 1) digits
    (if alwaysPoint then shown else withoutEndZeros shown) ++ shownExponent 'e' 2 power
  else
    let shown := fixed alwaysPoint ((count : Int) - 1 - power).toNat significand exponent
    if alwaysPoint then shown else withoutEndZeros shown

/-- Hexadecimal digits. The first has `leading` bits, and the fraction as many
digits as the bits that are left, or as are asked for. -/
def hexadecimal (f : Fineness) (leading : Nat) (alwaysPoint : Bool) (precision : Option Nat)
    (significand : Nat) (exponent : Int) : Text :=
  let full := (f.bits - leading + 3) / 4
  let (places, rounded) : Nat × Nat :=
    match precision with
    | none =>
      let digits := padded full (Nat.toDigits 16 (significand % Nat.pow 16 full))
      (if significand % Nat.pow 16 full == 0 then 0
        else (Text.dropEndWhile (· == '0') digits).length, significand)
    | some n =>
      (n, if n < full then nearest significand (Nat.pow 16 (full - n)) * Nat.pow 16 (full - n)
        else significand)
  let whole := Nat.toDigits 16 (rounded / Nat.pow 16 full)
  let digits := padded full (Nat.toDigits 16 (rounded % Nat.pow 16 full))
  let fraction := (digits ++ List.replicate (places - full) '0').take places
  let power : Int := if significand == 0 then 0 else exponent + (4 * full : Nat)
  whole ++ (if fraction.isEmpty && !alwaysPoint then [] else '.' :: fraction)
    ++ shownExponent 'p' 1 power

end ComponentPaths.Floating
