/-
Blank characters, the class of the Unicode property `White_Space`, and the
two trims that use it.

The zero width space and the byte order mark are not blank, and neither are
the four separators from U+001C to U+001F.
-/
import ComponentPaths.Text.Basic

namespace ComponentPaths.Text

/-- The ranges of `White_Space`, ends included, in ascending order. -/
def blankRanges : List (Nat × Nat) :=
  [(0x09, 0x0D), (0x20, 0x20), (0x85, 0x85), (0xA0, 0xA0), (0x1680, 0x1680),
    (0x2000, 0x200A), (0x2028, 0x2029), (0x202F, 0x202F), (0x205F, 0x205F),
    (0x3000, 0x3000)]

/-- Whether a character is blank. -/
def isBlank (c : Char) : Bool :=
  blankRanges.any fun (first, last) => first ≤ c.toNat && c.toNat ≤ last

/-- The text without blanks at its end. -/
def trimEnd (t : Text) : Text :=
  dropEndWhile isBlank t

/-- The text without blanks at both ends. -/
def trim (t : Text) : Text :=
  trimWhile isBlank t

end ComponentPaths.Text
