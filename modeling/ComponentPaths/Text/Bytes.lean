/-
Bytes and text: UTF-8.

Decoding follows the recommended practice of Unicode: each maximal part of
an ill-formed sequence that could have started a character becomes one
replacement character. Strict decoding fails at the first such part.
-/
import ComponentPaths.Text.Basic

namespace ComponentPaths

/-- The content of a file. -/
abbrev Bytes := List UInt8

namespace Bytes

/-- The UTF-8 bytes of a text. -/
def ofText (t : Text) : Bytes :=
  t.flatMap String.utf8EncodeChar

/-- What a first byte announces: how many bytes follow, the bits it carries
and the range of the next byte. -/
structure Lead where
  following : Nat
  bits : Nat
  low : Nat
  high : Nat
  deriving DecidableEq, Repr

/-- The announcement of a first byte that is not ASCII. The range of the next
byte shuts out overlong forms, surrogates and codes beyond U+10FFFF. -/
def lead? (b : Nat) : Option Lead :=
  if 0xC2 ≤ b ∧ b ≤ 0xDF then some ⟨1, b - 0xC0, 0x80, 0xBF⟩
  else if b = 0xE0 then some ⟨2, 0, 0xA0, 0xBF⟩
  else if b = 0xED then some ⟨2, 0xD, 0x80, 0x9F⟩
  else if 0xE1 ≤ b ∧ b ≤ 0xEF then some ⟨2, b - 0xE0, 0x80, 0xBF⟩
  else if b = 0xF0 then some ⟨3, 0, 0x90, 0xBF⟩
  else if 0xF1 ≤ b ∧ b ≤ 0xF3 then some ⟨3, b - 0xF0, 0x80, 0xBF⟩
  else if b = 0xF4 then some ⟨3, 4, 0x80, 0x8F⟩
  else none

/-- A decoding between two bytes: whether a character is under way, and if so
the bits read and what may follow. -/
inductive Decoding where
  | between
  | within (following bits low high : Nat)
  deriving DecidableEq, Repr

/-- The state after the first byte of a character, and what it completes: a
character, nothing yet, or an error. -/
def first (b : Nat) : Decoding × List (Option Char) :=
  if b < 0x80 then (.between, [some (Char.ofNat b)])
  else
    match lead? b with
    | some l => (.within l.following l.bits l.low l.high, [])
    | none => (.between, [none])

/-- The state after one more byte, and what it completes. A byte that cannot
continue a character ends it as an error and starts afresh. -/
def Decoding.step (d : Decoding) (b : Nat) : Decoding × List (Option Char) :=
  match d with
  | .between => first b
  | .within following bits low high =>
    if low ≤ b ∧ b ≤ high then
      let bits := bits * 64 + b % 64
      if following ≤ 1 then (.between, [some (Char.ofNat bits)])
      else (.within (following - 1) bits 0x80 0xBF, [])
    else
      let (next, completed) := first b
      (next, none :: completed)

/-- The characters of some bytes, with a gap for each ill-formed part. -/
def decodeFrom : Decoding → Bytes → List (Option Char)
  | .between, [] => []
  | .within _ _ _ _, [] => [none]
  | d, b :: rest =>
    let (next, completed) := d.step b.toNat
    completed ++ decodeFrom next rest

/-- The text of some bytes, with U+FFFD for each ill-formed part. -/
def toTextLossy (bytes : Bytes) : Text :=
  (decodeFrom .between bytes).map fun c => c.getD (Char.ofNat 0xFFFD)

/-- The text of some bytes, if they are well-formed. -/
def toText? (bytes : Bytes) : Option Text :=
  (decodeFrom .between bytes).mapM (fun c => c)

/-- The number of a line: one more than the line feeds before an offset. -/
def lineNumber (source : Bytes) (offset : Nat) : Nat :=
  (source.take offset).count 10 + 1

end Bytes

end ComponentPaths
