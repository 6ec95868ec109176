/-
Text is read back from its bytes.

Decoding goes byte by byte and decides at the first byte of a character what
may follow. Encoding goes character by character. They meet in one law,
`decodeFrom_encodeChar`: from between two characters, the bytes of a character
complete that character and lead between two characters again. The ranges that
a first byte announces shut out more than the bytes of other characters, so
each length has its own range to respect: three bytes must not be a code that
two could hold, nor a surrogate, and four must not be one that three could
hold, nor lie beyond the last code.
-/
import ComponentPaths.Text.Bytes

namespace ComponentPaths.Bytes

-- ============================================================== first bytes

/-- The first of two bytes. -/
theorem lead?_two {b : Nat} (hlow : 0xC2 ≤ b) (hhigh : b ≤ 0xDF) :
    lead? b = some ⟨1, b - 0xC0, 0x80, 0xBF⟩ := by
  unfold lead?
  rw [if_pos ⟨hlow, hhigh⟩]

/-- The first of three bytes. Some values of the second are left out. -/
theorem lead?_three {b : Nat} (hlow : 0xE0 ≤ b) (hhigh : b ≤ 0xEF) :
    lead? b = some ⟨2, b - 0xE0, if b = 0xE0 then 0xA0 else 0x80,
      if b = 0xED then 0x9F else 0xBF⟩ := by
  unfold lead?
  rw [if_neg (by omega)]
  by_cases hfirst : b = 0xE0
  · subst hfirst
    rfl
  · by_cases hsurrogate : b = 0xED
    · subst hsurrogate
      rfl
    · rw [if_neg hfirst, if_neg hsurrogate, if_pos (by omega), if_neg hfirst, if_neg hsurrogate]

/-- The first of four bytes. Here too, some are left out. -/
theorem lead?_four {b : Nat} (hlow : 0xF0 ≤ b) (hhigh : b ≤ 0xF4) :
    lead? b = some ⟨3, b - 0xF0, if b = 0xF0 then 0x90 else 0x80,
      if b = 0xF4 then 0x8F else 0xBF⟩ := by
  unfold lead?
  rw [if_neg (by omega), if_neg (by omega), if_neg (by omega), if_neg (by omega)]
  by_cases hfirst : b = 0xF0
  · subst hfirst
    rfl
  · by_cases hlast : b = 0xF4
    · subst hlast
      rfl
    · rw [if_neg hfirst, if_pos (by omega), if_neg hfirst, if_neg hlast]

-- ================================================================= one byte

theorem decodeFrom_cons (d : Decoding) (b : UInt8) (rest : Bytes) :
    decodeFrom d (b :: rest) = (d.step b.toNat).2 ++ decodeFrom (d.step b.toNat).1 rest := by
  cases d <;> rfl

/-- A first byte that announces more. -/
theorem decodeFrom_lead {b following bits low high : Nat} (hb : 0x80 ≤ b) (hbyte : b < 256)
    (h : lead? b = some ⟨following, bits, low, high⟩) (rest : Bytes) :
    decodeFrom .between (UInt8.ofNat b :: rest)
      = decodeFrom (.within following bits low high) rest := by
  have htoNat : (UInt8.ofNat b).toNat = b := UInt8.toNat_ofNat_of_lt hbyte
  have hstep : Decoding.between.step b = (.within following bits low high, []) := by
    simp only [Decoding.step, first, if_neg (Nat.not_lt.2 hb), h]
  rw [decodeFrom_cons, htoNat, hstep]
  rfl

/-- A byte in the range, with more to come. -/
theorem decodeFrom_within {following bits low high x : Nat} (hmore : 1 < following)
    (hx : x < 64) (hlow : low ≤ x + 0x80) (hhigh : x + 0x80 ≤ high) (rest : Bytes) :
    decodeFrom (.within following bits low high) (UInt8.ofNat (x + 0x80) :: rest)
      = decodeFrom (.within (following - 1) (bits * 64 + x) 0x80 0xBF) rest := by
  have htoNat : (UInt8.ofNat (x + 0x80)).toNat = x + 0x80 :=
    UInt8.toNat_ofNat_of_lt (show _ < 256 by omega)
  have hbits : (x + 0x80) % 64 = x := by omega
  rw [decodeFrom_cons, htoNat]
  simp only [Decoding.step, if_pos (And.intro hlow hhigh), if_neg (Nat.not_le.2 hmore), hbits]
  rfl

/-- The last byte of a character. -/
theorem decodeFrom_last {bits low high x : Nat} (hx : x < 64) (hlow : low ≤ x + 0x80)
    (hhigh : x + 0x80 ≤ high) (rest : Bytes) :
    decodeFrom (.within 1 bits low high) (UInt8.ofNat (x + 0x80) :: rest)
      = some (Char.ofNat (bits * 64 + x)) :: decodeFrom .between rest := by
  have htoNat : (UInt8.ofNat (x + 0x80)).toNat = x + 0x80 :=
    UInt8.toNat_ofNat_of_lt (show _ < 256 by omega)
  have hbits : (x + 0x80) % 64 = x := by omega
  rw [decodeFrom_cons, htoNat]
  simp only [Decoding.step, if_pos (And.intro hlow hhigh), if_pos (Nat.le_refl 1), hbits]
  rfl

-- ============================================================ one character

/-- The bytes of a character complete it. -/
theorem decodeFrom_encodeChar (c : Char) (rest : Bytes) :
    decodeFrom .between (String.utf8EncodeChar c ++ rest)
      = some c :: decodeFrom .between rest := by
  have hvalid : c.val.toNat < 0xD800 ∨ 0xDFFF < c.val.toNat ∧ c.val.toNat < 0x110000 := c.valid
  have hchar : Char.ofNat c.val.toNat = c := Char.ofNat_toNat c
  unfold String.utf8EncodeChar
  dsimp only
  generalize c.val.toNat = v at hvalid hchar ⊢
  split
  · -- one byte
    rename_i hone
    have htoNat : (UInt8.ofNat v).toNat = v := UInt8.toNat_ofNat_of_lt (show _ < 256 by omega)
    rw [List.singleton_append, decodeFrom_cons, htoNat]
    simp only [Decoding.step, first, if_pos (show v < 0x80 by omega), hchar]
    rfl
  · split
    · -- two bytes
      rw [show v / 64 % 0x20 = v / 64 by omega, List.cons_append, List.cons_append,
        decodeFrom_lead (by omega) (by omega) (lead?_two (by omega) (by omega)),
        decodeFrom_last (by omega) (by omega) (by omega),
        show (v / 64 + 0xc0 - 0xC0) * 64 + v % 0x40 = v by omega, hchar]
      rfl
    · split
      · -- three bytes
        have hlow : (if v / 4096 + 0xe0 = 0xE0 then 0xA0 else 0x80) ≤ v / 64 % 0x40 + 0x80 := by
          split <;> omega
        have hhigh : v / 64 % 0x40 + 0x80 ≤ if v / 4096 + 0xe0 = 0xED then 0x9F else 0xBF := by
          split <;> omega
        rw [show v / 4096 % 0x10 = v / 4096 by omega, List.cons_append, List.cons_append,
          List.cons_append,
          decodeFrom_lead (by omega) (by omega) (lead?_three (by omega) (by omega)),
          decodeFrom_within (by omega) (by omega) hlow hhigh,
          decodeFrom_last (by omega) (by omega) (by omega),
          show ((v / 4096 + 0xe0 - 0xE0) * 64 + v / 64 % 0x40) * 64 + v % 0x40 = v by omega,
          hchar]
        rfl
      · -- four bytes
        have hlow : (if v / 262144 + 0xf0 = 0xF0 then 0x90 else 0x80)
            ≤ v / 4096 % 0x40 + 0x80 := by
          split <;> omega
        have hhigh : v / 4096 % 0x40 + 0x80
            ≤ if v / 262144 + 0xf0 = 0xF4 then 0x8F else 0xBF := by
          split <;> omega
        rw [show v / 262144 % 0x08 = v / 262144 by omega, List.cons_append, List.cons_append,
          List.cons_append, List.cons_append,
          decodeFrom_lead (by omega) (by omega) (lead?_four (by omega) (by omega)),
          decodeFrom_within (by omega) (by omega) hlow hhigh,
          decodeFrom_within (by omega) (by omega) (by omega) (by omega),
          decodeFrom_last (by omega) (by omega) (by omega),
          show (((v / 262144 + 0xf0 - 0xF0) * 64 + v / 4096 % 0x40) * 64 + v / 64 % 0x40) * 64
            + v % 0x40 = v by omega, hchar]
        rfl

-- =================================================================== texts

/-- What a text is encoded to is decoded to it. -/
theorem decodeFrom_ofText (t : Text) : decodeFrom .between (ofText t) = t.map some := by
  induction t with
  | nil => rfl
  | cons c t ih =>
      unfold ofText at ih ⊢
      rw [List.flatMap_cons, decodeFrom_encodeChar, ih, List.map_cons]

/-- A text is read back from its bytes. -/
theorem toText?_ofText (t : Text) : toText? (ofText t) = some t := by
  unfold toText?
  rw [decodeFrom_ofText]
  induction t with
  | nil => rfl
  | cons c t ih =>
      rw [List.map_cons, List.mapM_cons, ih]
      rfl

end ComponentPaths.Bytes
