/-
Floating point numbers with a given count of significant bits.

A ratio of two naturals is rounded to the nearest such number, and of two
equally near to the one whose last bit is zero. Reading a text finds the ratio
that it writes, in decimal or hexadecimal digits, and rounds it once; so the
result does not depend on how the digits are grouped.
-/
import ComponentPaths.Text.Basic

namespace ComponentPaths

/-- How fine floating point numbers are: their significant bits, and the
exponents of the last bit of the smallest and of the largest ones. -/
structure Fineness where
  bits : Nat
  least : Int
  greatest : Int
  deriving DecidableEq, Repr

/-- Numbers of double precision. -/
def Fineness.double : Fineness :=
  ⟨53, -1074, 971⟩

/-- Numbers of extended precision. -/
def Fineness.extended : Fineness :=
  ⟨64, -16445, 16320⟩

/-- A floating point number; a finite one is `significand * 2 ^ exponent`. -/
inductive Floating where
  | finite (isNegative : Bool) (significand : Nat) (exponent : Int)
  | infinite (isNegative : Bool)
  | undefined (isNegative : Bool)
  deriving DecidableEq, Repr

namespace Floating

-- ==================================================================== rounding

/-- The natural nearest to a ratio, and of two equally near the even one. -/
def nearest (num den : Nat) : Nat :=
  let whole := num / den
  let twice := 2 * (num % den)
  if den < twice || (twice == den && whole % 2 == 1) then whole + 1 else whole

/-- A ratio of two naturals times a power of a base, as a ratio. -/
def scaled (base num den : Nat) (power : Int) : Nat × Nat :=
  (num * Nat.pow base power.toNat, den * Nat.pow base (-power).toNat)

/-- The exponent of the first bit of a ratio that is not zero. -/
def firstBit (num den : Nat) : Int :=
  let guess : Int := (Nat.log2 num : Int) - Nat.log2 den
  let (n, d) := scaled 2 num den (-guess)
  if n < d then guess - 1 else guess

/-- A number from a ratio, and whether the ratio is out of range: too large, or
so small that bits are lost. -/
def ofRatio (f : Fineness) (isNegative : Bool) (num den : Nat) : Floating × Bool :=
  if num == 0 then (.finite isNegative 0 f.least, false)
  else
    let exponent := max f.least (firstBit num den - (f.bits - 1 : Nat))
    let (n, d) := scaled 2 num den (-exponent)
    let rounded := nearest n d
    let (significand, exponent) :=
      if rounded == Nat.pow 2 f.bits then (Nat.pow 2 (f.bits - 1), exponent + 1)
      else (rounded, exponent)
    if f.greatest < exponent then (.infinite isNegative, true)
    else
      let isSmall := n < Nat.pow 2 (f.bits - 1) * d
      (.finite isNegative significand exponent, isSmall && n % d != 0)

-- ===================================================================== reading

/-- The value of a digit in a base up to sixteen. -/
def digit? (base : Nat) (c : Char) : Option Nat :=
  let value :=
    if c.isDigit then some (Text.digitValue c)
    else if 'a' ≤ c && c ≤ 'f' then some (c.toNat - 'a'.toNat + 10)
    else if 'A' ≤ c && c ≤ 'F' then some (c.toNat - 'A'.toNat + 10)
    else none
  value.filter (· < base)

/-- The natural that digits write. -/
def ofDigits (base : Nat) (digits : Text) : Nat :=
  digits.foldl (fun n c => n * base + (digit? base c).getD 0) 0

/-- Digits with a point among them: those before it, those after it, and what
follows. There is at least one digit. -/
def digitsWithPoint? (base : Nat) (t : Text) : Option (Text × Text × Text) :=
  let isDigit (c : Char) : Bool := (digit? base c).isSome
  let whole := t.takeWhile isDigit
  let (fraction, rest) : Text × Text :=
    match t.drop whole.length with
    | '.' :: after => (after.takeWhile isDigit, after.dropWhile isDigit)
    | after => ([], after)
  if whole.isEmpty && fraction.isEmpty then none else some (whole, fraction, rest)

/-- An exponent after its letter, and what follows. Without digits there is none. -/
def exponent (letter : Char) (t : Text) : Int × Text :=
  match t with
  | c :: rest =>
    if c.toLower == letter then
      let (isNegative, unsigned) : Bool × Text :=
        match rest with
        | '-' :: after => (true, after)
        | '+' :: after => (false, after)
        | after => (false, after)
      let digits := unsigned.takeWhile Char.isDigit
      if digits.isEmpty then (0, t)
      else
        let size : Int := Text.natOfDigits digits
        (if isNegative then -size else size, unsigned.drop digits.length)
    else (0, t)
  | [] => (0, t)

/-- How large exponents can be before the number is zero or infinite whatever
its digits are. -/
def exponentLimit : Nat := 40000

/-- A number from its digits, in a base, and a power of another base. -/
def ofDigitsAndPower (f : Fineness) (isNegative : Bool) (base powerBase : Nat)
    (whole fraction : Text) (power : Int) : Floating × Bool :=
  let digits := ofDigits base (whole ++ fraction)
  let places : Int := (whole.length + fraction.length : Nat)
  if digits == 0 then (.finite isNegative 0 f.least, false)
  else if (exponentLimit : Int) + 4 * places < power then (.infinite isNegative, true)
  else if power < -(exponentLimit : Int) - 4 * places then
    (.finite isNegative 0 f.least, true)
  else
    let (num, den) := scaled powerBase digits 1 power
    ofRatio f isNegative num (den * Nat.pow base fraction.length)

/-- A text without letters at its start that are also there in another case. -/
def dropLetters? (letters t : Text) : Option Text :=
  if (t.take letters.length).map Char.toLower == letters then some (t.drop letters.length)
  else none

/-- What follows the remark of an undefined number. -/
def dropRemark (t : Text) : Text :=
  match t with
  | '(' :: rest =>
    match rest.dropWhile fun c => c.isAlphanum || c == '_' with
    | ')' :: after => after
    | _ => t
  | _ => t

/-- An unsigned number at the start of a text, whether it is out of range, and
what follows it. -/
def unsigned? (f : Fineness) (isNegative : Bool) (t : Text) :
    Option (Floating × Bool × Text) :=
  let hexadecimal : Option (Floating × Bool × Text) :=
    match t with
    | '0' :: x :: rest =>
      if x == 'x' || x == 'X' then
        (digitsWithPoint? 16 rest).map fun (whole, fraction, after) =>
          let (power, after) := exponent 'p' after
          let (value, isOut) := ofDigitsAndPower f isNegative 16 2 whole fraction power
          (value, isOut, after)
      else none
    | _ => none
  match hexadecimal, dropLetters? "infinity" t, dropLetters? "inf" t, dropLetters? "nan" t with
  | some found, _, _, _ => some found
  | none, some after, _, _ => some (.infinite isNegative, false, after)
  | none, none, some after, _ => some (.infinite isNegative, false, after)
  | none, none, none, some after => some (.undefined isNegative, false, dropRemark after)
  | none, none, none, none =>
    (digitsWithPoint? 10 t).map fun (whole, fraction, after) =>
      let (power, after) := exponent 'e' after
      let (value, isOut) := ofDigitsAndPower f isNegative 10 10 whole fraction power
      (value, isOut, after)

/-- A number at the start of a text, after blanks and a sign. -/
def read? (f : Fineness) (t : Text) : Option (Floating × Bool × Text) :=
  match t.dropWhile fun c => c == ' ' || (9 ≤ c.toNat && c.toNat ≤ 13) with
  | '-' :: rest => unsigned? f true rest
  | '+' :: rest => unsigned? f false rest
  | rest => unsigned? f false rest

end Floating

end ComponentPaths
