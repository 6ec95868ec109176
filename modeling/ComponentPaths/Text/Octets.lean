/-
Texts of bytes: one character for each byte, the code of which is the byte.

Programs read and print bytes, which need not be UTF-8. Where they are taken
apart character by character, a text of bytes keeps all of them and is still
a `Text`.
-/
import ComponentPaths.Text.Bytes

namespace ComponentPaths.Octets

/-- The bytes of a text. -/
def ofText (t : Text) : Text :=
  (Bytes.ofText t).map fun b => Char.ofNat b.toNat

/-- Some bytes. -/
def ofBytes (bytes : Bytes) : Text :=
  bytes.map fun b => Char.ofNat b.toNat

/-- The bytes that characters stand for. -/
def toBytes (t : Text) : Bytes :=
  t.map fun c => UInt8.ofNat c.toNat

/-- The text that bytes encode. -/
def toText (t : Text) : Text :=
  Bytes.toTextLossy (toBytes t)

end ComponentPaths.Octets
