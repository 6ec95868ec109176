/-
Numbers of JSON texts: how they are written, what they denote and how a
value is written again.

An integer that fits a machine word stays exact. Every other number is a
double: its leading digits, as many as fit a word, scaled by a power of ten,
with one rounding for the digits and one for each scaling step. A number too
large for a double is refused.
-/
import ComponentPaths.Text.Basic
import ComponentPaths.Decimal.Shortest

namespace ComponentPaths.Json

/-- A number as it is written. -/
structure Numeral where
  negative : Bool
  whole : Text
  fraction : Option Text
  /-- The sign of the exponent, true for minus, and its digits. -/
  exponent : Option (Bool × Text)
  deriving DecidableEq, Repr

/-- A number as a value. -/
inductive Number where
  | integer (value : Int)
  | real (value : Float)

namespace Number

/-- The bit of a word that holds a sign. -/
def signBit : Nat :=
  Nat.pow 2 63

-- ================================================================= reading

/-- The digits that fit a word, after those already read into `n`: the number
they make and how many there are. -/
def takeWord (n : Nat) : Text → Nat × Nat
  | [] => (n, 0)
  | c :: cs =>
    let next := 10 * n + Text.digitValue c
    if next < Text.wordCount then
      let (m, count) := takeWord next cs
      (m, count + 1)
    else (n, 0)

/-- A word scaled by a power of ten. A large negative power is applied in
steps of 308, until nothing is left. Fails beyond the range of doubles. -/
def scale : (steps : Nat) → Float → Int → Option Float
  | 0, f, _ => some f
  | steps + 1, f, e =>
    if e.natAbs ≤ 308 then
      let power := Float.ofScientific 1 false e.natAbs
      if e ≥ 0 then
        let g := f * power
        if g.isInf then none else some g
      else some (f / power)
    else if f == 0.0 then some f
    else if e ≥ 0 then none
    else scale steps (f / 1e308) (e + 308)

/-- The largest exponent that is read; a larger one makes the number zero or
puts it out of range. -/
def exponentLimit : Nat :=
  Nat.pow 2 31 - 1

/-- The double `significand * 10 ^ power`, with as many steps as it can take. -/
def scaleFull (significand : Nat) (power : Int) : Option Float :=
  scale (power.natAbs / 308 + 2) (UInt64.ofNat significand).toFloat power

/-- The double `significand * 10 ^ power` with a written exponent on top. -/
def scaleBy (significand : Nat) (power : Int) : Option (Bool × Text) → Option Float
  | none => scaleFull significand power
  | some (minus, digits) =>
    let e := Text.natOfDigits digits
    if e > exponentLimit then
      if significand ≠ 0 ∧ minus = false then none else some 0.0
    else scaleFull significand (if minus then power - e else power + e)

/-- The double a numeral denotes. -/
def toReal? (n : Numeral) : Option Number :=
  let (whole, taken) := takeWord 0 n.whole
  let (significand, places) := takeWord whole (n.fraction.getD [])
  let power : Int := ((n.whole.length - taken : Nat) : Int) - (places : Int)
  (scaleBy significand power n.exponent).map fun f =>
    .real (if n.negative then -f else f)

/-- The value of a numeral. Negative zero is a double. -/
def ofNumeral? (n : Numeral) : Option Number :=
  if n.fraction.isNone && n.exponent.isNone then
    let value := Text.natOfDigits n.whole
    if !n.negative && value < Text.wordCount then some (.integer value)
    else if n.negative && 0 < value && value ≤ signBit then some (.integer (-(value : Int)))
    else toReal? n
  else toReal? n

/-- The number as a signed word. -/
def toSigned? : Number → Option Int
  | .integer value => if value < signBit then some value else none
  | .real _ => none

-- ================================================================= writing

/-- Where doubles are written without an exponent: the decimal exponents of
the first digit, ends included. -/
def plainExponents : Int × Int :=
  (-5, 15)

/-- A decimal without an exponent, always with a fraction. -/
def plainText (digits : Text) (first : Int) : Text :=
  if first < 0 then
    "0." ++ List.replicate (-first - 1).toNat '0' ++ digits
  else
    let places := first.toNat + 1
    if digits.length ≤ places then
      digits ++ List.replicate (places - digits.length) '0' ++ ".0"
    else digits.take places ++ '.' :: digits.drop places

/-- A decimal with one digit before the point and a signed exponent. -/
def scientificText (digits : Text) (first : Int) : Text :=
  let mantissa :=
    match digits with
    | d :: e :: rest => d :: '.' :: e :: rest
    | short => short
  mantissa ++ 'e' :: (if first < 0 then '-' else '+') :: Text.ofNat first.natAbs

/-- The text of a decimal: plain in the middle range, scientific outside. -/
def decimalText (d : Decimal) : Text :=
  let all := Text.ofNat d.digits
  let digits := Text.dropEndWhile (· == '0') all
  let first := d.exponent + all.length - 1
  if plainExponents.1 ≤ first && first ≤ plainExponents.2 then plainText digits first
  else scientificText digits first

/-- The text of a number: the shortest that reads back. -/
def text : Number → Text
  | .integer value => Text.ofInt value
  | .real value =>
    let bits := value.toBits.toNat
    let magnitude := bits % signBit
    let body : Text :=
      if magnitude = 0 then "0.0" else decimalText (Decimal.Binary.ofBits magnitude).shortest
    if bits < signBit then body else '-' :: body

end Number

end ComponentPaths.Json
