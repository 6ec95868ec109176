/-
Text as lists of characters.

Every name, path and message of the library is a `Text`, a list of
characters, so that scanners recurse on the data and laws are proved by
induction. `String` appears only where text enters or leaves the program,
and a string literal is read as a `Text` wherever one is expected.

Texts are ordered by code point, first difference wins. That is also the
order of their UTF-8 bytes.
-/
namespace ComponentPaths

/-- Text is a list of characters. -/
abbrev Text := List Char

/-- A string literal stands for its characters. -/
instance : Coe String Text := ⟨String.toList⟩

namespace Text

-- ======================================================= cutting and joining

/-- What follows `head` in `t`, when `t` starts with it. -/
def dropHead? : (head t : Text) → Option Text
  | [], t => some t
  | _ :: _, [] => none
  | h :: hs, c :: cs => if h = c then dropHead? hs cs else none

/-- What precedes `tail` in `t`, when `t` ends with it. -/
def dropTail? (tail t : Text) : Option Text :=
  (dropHead? tail.reverse t.reverse).map List.reverse

/-- The parts with `sep` between neighbours. -/
def join (sep : Text) (parts : List Text) : Text :=
  List.intercalate sep parts

/-- The segments of a plain path, with a separator between neighbours. -/
def joinSlash (parts : List Text) : Text :=
  join ['/'] parts

/-- The parts between separators, empty ones included. -/
def splitSlash (t : Text) : List Text :=
  List.splitOn '/' t

/-- The text without the characters of class `p` at its end. -/
def dropEndWhile (p : Char → Bool) (t : Text) : Text :=
  (t.reverse.dropWhile p).reverse

/-- The text without the characters of class `p` at both ends. -/
def trimWhile (p : Char → Bool) (t : Text) : Text :=
  dropEndWhile p (t.dropWhile p)

/-- The text without separators at both ends. -/
def trimSlashes (t : Text) : Text :=
  trimWhile (· == '/') t

/-- What stands before and after the first `c`, when there is one. -/
def splitFirst (c : Char) : Text → Option (Text × Text)
  | [] => none
  | d :: rest =>
    if d = c then some ([], rest)
    else (splitFirst c rest).map fun (before, after) => (d :: before, after)

/-- What follows the first occurrence of `part`, when there is one. -/
def afterFirst? (part : Text) : Text → Option Text
  | [] => dropHead? part []
  | c :: rest =>
    match dropHead? part (c :: rest) with
    | some after => some after
    | none => afterFirst? part rest

/-- Whether `part` occurs in the text. -/
def hasPart (part t : Text) : Bool :=
  (afterFirst? part t).isSome

/-- Everything before the last separator of a plain path; nothing when it has none. -/
def parentDir (path : Text) : Text :=
  match path.reverse.dropWhile (· != '/') with
  | [] => []
  | _ :: before => before.reverse

-- ================================================================== numbers

/-- Decimal digits of a natural number. -/
def ofNat (n : Nat) : Text :=
  Nat.toDigits 10 n

/-- Decimal digits of an integer, with a sign when it is negative. -/
def ofInt : Int → Text
  | .ofNat n => ofNat n
  | .negSucc n => '-' :: ofNat (n + 1)

/-- The value of one decimal digit. -/
def digitValue (c : Char) : Nat :=
  c.toNat - '0'.toNat

/-- The number written by a list of decimal digits. -/
def natOfDigits (digits : Text) : Nat :=
  digits.foldl (fun n c => 10 * n + digitValue c) 0

/-- How many values a machine word has. -/
def wordCount : Nat :=
  Nat.pow 2 64

/-- A machine word in decimal: digits after at most one plus sign. -/
def toWord? (t : Text) : Option Nat :=
  let digits := (dropHead? ['+'] t).getD t
  if digits.isEmpty || !digits.all Char.isDigit then none
  else
    let n := natOfDigits digits
    if n < wordCount then some n else none

-- ==================================================================== order

/-- Whether a text comes no later than another: by the first characters that
differ, and a beginning before what continues it. -/
def notAfter : Text → Text → Bool
  | [], _ => true
  | _ :: _, [] => false
  | a :: as, b :: bs => if a = b then notAfter as bs else a < b

/-- Texts in ascending order; equal ones keep their places. -/
def sort (texts : List Text) : List Text :=
  texts.mergeSort notAfter

end Text

end ComponentPaths
