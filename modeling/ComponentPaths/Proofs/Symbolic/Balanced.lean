/-
Balanced code, and the text that follows a placeholder.

Code and text share one written form, and a scanner finds the brace at which
a placeholder ends. Whether that is the right one depends on the code.
`Balanced` says which code is safe, and says it without the scanner: outside
of quotes the braces pair up, and a quote ends at the next mark of its own
that no backslash takes away. The scanner knows no other rule
(`sealed_iff_balanced`). In particular it knows no comments: a quote in one
opens a string like any other.

For balanced code the text after a placeholder is a piece of its own, and
for no other code (`pieces_placeholder_iff`). What is not balanced either
ends its placeholder early, or takes the text that follows into it.

Where a placeholder starts is another matter, and a simple one: at the first
opening brace, whoever put it there (`hasPlaceholder_iff`).
-/
import ComponentPaths.Proofs.Symbolic.Placeholders

namespace ComponentPaths.Symbolic

variable {t u code : Text}

-- ================================================================= grammar

/-- What can stand between two marks of a quote. -/
inductive Quotable (mark : Char) : Text → Prop
  | nil : Quotable mark []
  | plain {c : Char} {t : Text} (unmarked : c ≠ mark) (unescaped : c ≠ '\\')
      (rest : Quotable mark t) : Quotable mark (c :: t)
  | escape {c : Char} {t : Text} (rest : Quotable mark t) : Quotable mark ('\\' :: c :: t)

/-- The marks of a quote. -/
def IsMark (c : Char) : Prop :=
  c = '\'' ∨ c = '"'

/-- Characters that neither quote nor nest. -/
def IsPlain (c : Char) : Prop :=
  ¬IsMark c ∧ c ≠ '{' ∧ c ≠ '}'

/-- Code whose quotes are closed and whose braces pair up outside of them. -/
inductive Balanced : Text → Prop
  | nil : Balanced []
  | plain {c : Char} {t : Text} (known : IsPlain c) (rest : Balanced t) : Balanced (c :: t)
  | quote {mark : Char} {body t : Text} (isMark : IsMark mark) (inside : Quotable mark body)
      (rest : Balanced t) : Balanced (mark :: body ++ mark :: t)
  | braces {code t : Text} (inside : Balanced code) (rest : Balanced t) :
      Balanced ('{' :: code ++ '}' :: t)

-- ================================================================ one step

theorem Scan.inside_cons {scan next : Scan} {c : Char} (hstep : scan.step c = next)
    (hnext : next ≠ .outside) (t : Text) : scan.inside (c :: t) = next.inside t := by
  subst hstep
  rw [Scan.inside, if_neg hnext]

/-- A plain character changes nothing in code. -/
theorem Scan.step_plain {c : Char} (h : IsPlain c) (depth : Nat) :
    (Scan.code depth).step c = .code depth := by
  obtain ⟨hmark, hopen, hclose⟩ := h
  unfold IsMark at hmark
  simp only [Scan.step]
  rw [if_neg hmark, if_neg hopen, if_neg hclose]

/-- A mark opens a quote, -/
theorem Scan.step_mark {c : Char} (h : IsMark c) (depth : Nat) :
    (Scan.code depth).step c = .quoted depth c := by
  unfold IsMark at h
  simp only [Scan.step]
  rw [if_pos h]

theorem Scan.step_quoted {c mark : Char} (hmark : c ≠ mark) (hback : c ≠ '\\') (depth : Nat) :
    (Scan.quoted depth mark).step c = .quoted depth mark := by
  simp only [Scan.step]
  rw [if_neg hback, if_neg hmark]

/-- and the same mark closes it. -/
theorem Scan.step_unquote {mark : Char} (h : mark ≠ '\\') (depth : Nat) :
    (Scan.quoted depth mark).step mark = .code depth := by
  simp [Scan.step, h]

theorem IsMark.ne_backslash {c : Char} (h : IsMark c) : c ≠ '\\' := by
  rcases h with rfl | rfl <;> decide

-- ====================================================== balanced is sealed

/-- What can stand in a quote keeps it open. -/
theorem Quotable.inside {mark : Char} {body : Text} (h : Quotable mark body) (depth : Nat) :
    Scan.inside (.quoted depth mark) body = some (.quoted depth mark) := by
  induction h with
  | nil => rfl
  | plain hmark hback _ ih =>
      rw [Scan.inside_cons (Scan.step_quoted hmark hback depth) (by simp), ih]
  | @escape c t _ ih =>
      have hescape : (Scan.quoted depth mark).step '\\' = .escaped depth mark := rfl
      have hback : (Scan.escaped depth mark).step c = .quoted depth mark := rfl
      rw [Scan.inside_cons hescape (by simp), Scan.inside_cons hback (by simp), ih]

/-- Balanced code is sealed. -/
theorem Balanced.sealed (h : Balanced t) : Sealed t := by
  induction h with
  | nil => rfl
  | plain known _ ih =>
      unfold Sealed
      rw [Scan.inside_cons (Scan.step_plain known 0) (by simp)]
      exact ih
  | @quote mark body t isMark inside _ ih =>
      unfold Sealed
      rw [List.cons_append, Scan.inside_cons (Scan.step_mark isMark 0) (by simp),
        Scan.inside_append, inside.inside, Option.bind_some,
        Scan.inside_cons (Scan.step_unquote isMark.ne_backslash 0) (by simp)]
      exact ih
  | @braces code t _ _ ihcode ih =>
      have happend : '{' :: code ++ '}' :: t = ('{' :: code ++ ['}']) ++ t := by simp
      rw [happend]
      exact ihcode.braces.append ih

-- ====================================================== sealed is balanced

/-- A scan that comes out of a quote does so at its mark. -/
theorem exists_quotable {mark : Char} {depth last : Nat}
    (h : Scan.inside (.quoted depth mark) t = some (.code last)) :
    ∃ body rest, t = body ++ mark :: rest ∧ Quotable mark body
      ∧ Scan.inside (.code depth) rest = some (.code last) := by
  -- an escape takes two characters at once
  induction hn : t.length using Nat.strongRecOn generalizing t with
  | ind n ih =>
      cases t with
      | nil => cases h
      | cons c t =>
          rw [List.length_cons] at hn
          by_cases hback : c = '\\'
          · subst hback
            cases t with
            | nil => cases h
            | cons d t =>
                rw [List.length_cons] at hn
                have hrest : Scan.inside (.quoted depth mark) t = some (.code last) := h
                obtain ⟨body, rest, rfl, hbody, hlast⟩ := ih t.length (by omega) hrest rfl
                exact ⟨'\\' :: d :: body, rest, rfl, .escape hbody, hlast⟩
          · by_cases hmark : c = mark
            · subst hmark
              rw [Scan.inside_cons (Scan.step_unquote hback depth) (by simp)] at h
              exact ⟨[], t, rfl, .nil, h⟩
            · rw [Scan.inside_cons (Scan.step_quoted hmark hback depth) (by simp)] at h
              obtain ⟨body, rest, rfl, hbody, hlast⟩ := ih t.length (by omega) h rfl
              exact ⟨c :: body, rest, rfl, .plain hmark hback hbody, hlast⟩

/-- A scan that comes back from one brace deeper does so at the brace that
closes it. -/
theorem exists_braced {scan : Scan} (hscan : scan ≠ .outside)
    (h : scan.deeper.inside t = some (.code 0)) :
    ∃ code rest, t = code ++ '}' :: rest ∧ scan.inside code = some (.code 0)
      ∧ Sealed rest := by
  induction t generalizing scan with
  | nil => cases scan <;> simp_all [Scan.inside, Scan.deeper]
  | cons c t ih =>
      by_cases hout : scan.step c = .outside
      · obtain ⟨rfl, rfl⟩ := Scan.eq_of_step_outside hscan hout
        exact ⟨[], t, rfl, rfl, h⟩
      · obtain ⟨hstep, hin⟩ := Scan.step_deeper hscan hout
        rw [Scan.inside_cons hstep hin] at h
        obtain ⟨code, rest, rfl, hcode, hrest⟩ := ih hout h
        refine ⟨c :: code, rest, rfl, ?_, hrest⟩
        rw [Scan.inside_cons rfl hout, hcode]

/-- And all sealed code is balanced. -/
theorem balanced_of_sealed (h : Sealed t) : Balanced t := by
  induction hn : t.length using Nat.strongRecOn generalizing t with
  | ind n ih =>
      cases t with
      | nil => exact .nil
      | cons c t =>
          rw [List.length_cons] at hn
          by_cases hmark : IsMark c
          · unfold Sealed at h
            rw [Scan.inside_cons (Scan.step_mark hmark 0) (by simp)] at h
            obtain ⟨body, rest, rfl, hbody, hrest⟩ := exists_quotable h
            rw [List.length_append, List.length_cons] at hn
            exact .quote hmark hbody (ih rest.length (by omega) hrest rfl)
          · by_cases hopen : c = '{'
            · subst hopen
              have hdeeper : Scan.inside (Scan.code 0).deeper t = some (.code 0) := h
              obtain ⟨code, rest, rfl, hcode, hrest⟩ := exists_braced (by simp) hdeeper
              rw [List.length_append, List.length_cons] at hn
              exact .braces (ih code.length (by omega) hcode rfl)
                (ih rest.length (by omega) hrest rfl)
            · by_cases hclose : c = '}'
              · -- a brace with nothing to close leads out
                subst hclose
                cases h
              · have hplain : IsPlain c := ⟨hmark, hopen, hclose⟩
                unfold Sealed at h
                rw [Scan.inside_cons (Scan.step_plain hplain 0) (by simp)] at h
                exact .plain hplain (ih t.length (by omega) h rfl)

/-- The scanner keeps to balanced code. -/
theorem sealed_iff_balanced : Sealed t ↔ Balanced t :=
  ⟨balanced_of_sealed, Balanced.sealed⟩

instance (t : Text) : Decidable (Balanced t) :=
  decidable_of_iff _ sealed_iff_balanced

example : Balanced "$a ? f('\x7d') : \"\x7b$b\x7d\"" ∧ ¬Balanced "$a /* don't */ ? 'x' : 'y'" := by
  decide

-- ============================================================= parentheses

theorem Balanced.append (ht : Balanced t) (hu : Balanced u) : Balanced (t ++ u) :=
  sealed_iff_balanced.1 (ht.sealed.append hu.sealed)

/-- A plain character in front does not matter to the balance. -/
theorem Balanced.tail {c : Char} (hc : IsPlain c) (h : Balanced (c :: t)) : Balanced t := by
  have hsealed := h.sealed
  unfold Sealed at hsealed
  rw [Scan.inside_cons (Scan.step_plain hc 0) (by simp)] at hsealed
  exact balanced_of_sealed hsealed

/-- The last character of a text is also the last one after any other. -/
theorem exists_concat_of_append_cons {front rest : Text} {m c : Char} (hne : m ≠ c)
    (h : t ++ [c] = front ++ m :: rest) :
    ∃ rest', rest' ++ [c] = rest ∧ t = front ++ m :: rest' := by
  rcases List.eq_nil_or_concat rest with rfl | ⟨rest, last, rfl⟩
  · obtain ⟨-, hlast⟩ := List.append_inj' h rfl
    cases hlast
    exact absurd rfl hne
  · rw [List.concat_eq_append, ← List.cons_append, ← List.append_assoc] at h
    obtain ⟨rfl, hlast⟩ := List.append_inj' h rfl
    cases hlast
    exact ⟨rest, List.concat_eq_append.symm, rfl⟩

/-- Balanced code without its last character, if that is plain. -/
theorem Balanced.init {c : Char} (hc : IsPlain c) (h : Balanced (t ++ [c])) : Balanced t := by
  generalize hall : t ++ [c] = all at h
  induction h generalizing t with
  | nil => simp at hall
  | plain known _ ih =>
      cases t with
      | nil => exact .nil
      | cons d t =>
          obtain ⟨rfl, htail⟩ := List.cons.inj hall
          exact .plain known (ih htail)
  | @quote mark body rest isMark inside _ ih =>
      have hne : mark ≠ c := by
        rintro rfl
        exact hc.1 isMark
      obtain ⟨rest', hrest, rfl⟩ := exists_concat_of_append_cons hne hall
      exact .quote isMark inside (ih hrest)
  | @braces code rest inside _ _ ih =>
      obtain ⟨rest', hrest, rfl⟩ := exists_concat_of_append_cons (Ne.symm hc.2.2) hall
      exact .braces inside (ih hrest)

theorem isPlain_parenthesis : IsPlain '(' ∧ IsPlain ')' := by
  unfold IsPlain IsMark
  decide

/-- Parentheses around code make no difference. -/
theorem balanced_parenthesized : Balanced ("(" ++ t ++ ")") ↔ Balanced t := by
  obtain ⟨hleft, hright⟩ := isPlain_parenthesis
  constructor
  · intro h
    exact (Balanced.init hright h).tail hleft
  · intro h
    have hopen : Balanced "(" := .plain hleft .nil
    have hclose : Balanced ")" := .plain hright .nil
    exact (hopen.append h).append hclose

-- ======================================================== what comes after

/-- A text without a brace is one plain chunk. -/
theorem chunks_of_not_mem (hne : t ≠ []) (h : '{' ∉ t) : chunks t = [.plain t] := by
  induction t with
  | nil => exact absurd rfl hne
  | cons c t ih =>
      rw [List.mem_cons, not_or] at h
      rw [chunks_plain (Ne.symm h.1)]
      by_cases ht : t = []
      · subst ht
        rfl
      · rw [ih ht h.2]
        rfl

/-- Inside of a placeholder, the first chunk is the rest of it. -/
theorem chunksFrom_ne_plain {scan : Scan} (hscan : scan ≠ .outside) (text : Text)
    (rest : List Chunk) : chunksFrom scan t ≠ .plain text :: rest := by
  cases t with
  | nil => simp [chunksFrom]
  | cons c t =>
      simp only [chunksFrom]
      split
      · exact absurd rfl hscan
      · simp
      · unfold Chunk.consHole
        split <;> simp

/-- A placeholder with something after it is closed, and holds sealed code. -/
theorem exists_sealed_of_chunksFrom {scan : Scan} (hscan : scan ≠ .outside) {hole : Text}
    {next : Chunk} {rest : List Chunk} (h : chunksFrom scan t = .hole hole :: next :: rest) :
    ∃ code, hole = code ++ ['}'] ∧ scan.inside code = some (.code 0) := by
  induction t generalizing scan hole with
  | nil => cases h
  | cons c t ih =>
      by_cases hout : scan.step c = .outside
      · obtain ⟨rfl, rfl⟩ := Scan.eq_of_step_outside hscan hout
        have hhole : .hole ['}'] :: chunks t = .hole hole :: next :: rest := h
        obtain ⟨hhole, -⟩ := List.cons.inj hhole
        cases hhole
        exact ⟨[], rfl, rfl⟩
      · rw [chunksFrom_inside hout] at h
        cases hrest : chunksFrom (scan.step c) t with
        | nil =>
            rw [hrest] at h
            cases h
        | cons chunk chunks =>
            cases chunk with
            | plain text => exact absurd hrest (chunksFrom_ne_plain hout text chunks)
            | hole inner =>
                rw [hrest] at h
                cases h
                obtain ⟨code, rfl, hcode⟩ := ih hout hrest
                refine ⟨c :: code, rfl, ?_⟩
                rw [Scan.inside_cons rfl hout, hcode]

/-- A placeholder is a chunk with another one after it only if its code is
sealed. -/
theorem sealed_of_chunks {next : Chunk} {rest : List Chunk}
    (h : chunks (placeholder code ++ u) = .hole (placeholder code) :: next :: rest) :
    Sealed code := by
  have hopen : Scan.outside.step '{' = .code 0 := rfl
  have hplaceholder : placeholder code = '{' :: (code ++ ['}']) := by
    simp [placeholder, Piece.render]
  rw [placeholder_append] at h
  unfold chunks at h
  rw [chunksFrom_inside (by rw [hopen]; simp), hopen] at h
  -- the chunk without its first character is the rest of the placeholder
  cases hinner : chunksFrom (.code 0) (code ++ '}' :: u) with
  | nil =>
      rw [hinner] at h
      simp [Chunk.consHole] at h
  | cons chunk chunks =>
      cases chunk with
      | plain text => exact absurd hinner (chunksFrom_ne_plain (by simp) text chunks)
      | hole inner =>
          rw [hinner, hplaceholder] at h
          cases h
          obtain ⟨code', hcode, hsealed⟩ := exists_sealed_of_chunksFrom (by simp) hinner
          obtain ⟨rfl, -⟩ := List.append_inj' hcode rfl
          exact hsealed

theorem pieces_placeholder_append (code u : Text) :
    pieces (placeholder code ++ u) = (chunks (placeholder code ++ u)).map Chunk.toPiece := by
  rw [placeholder_append]
  rfl

/-- The text after a placeholder is a piece of its own just if the code in the
placeholder is balanced. -/
theorem pieces_placeholder_iff (hne : u ≠ []) (hu : '{' ∉ u) :
    pieces (placeholder code ++ u) = [.placeholder code, .literal u] ↔ Balanced code := by
  rw [pieces_placeholder_append, ← sealed_iff_balanced]
  constructor
  · intro h
    obtain ⟨first, rest, hchunks, hfirst, hrest⟩ := List.map_eq_cons_iff.1 h
    obtain ⟨second, last, rfl, hsecond, hlast⟩ := List.map_eq_cons_iff.1 hrest
    rw [List.map_eq_nil_iff] at hlast
    subst hlast
    have htext := flatMap_text_chunks (placeholder code ++ u)
    rw [hchunks] at htext
    cases first with
    | plain text => cases hfirst
    | hole hole =>
        cases second with
        | hole inner => cases hsecond
        | plain text =>
            cases hsecond
            -- the two chunks are the text, so the first is the placeholder
            have hhole : hole = placeholder code := by
              simpa [Chunk.text] using htext
            rw [hhole] at hchunks
            exact sealed_of_chunks hchunks
  · intro h
    rw [chunks_placeholder h, chunks_of_not_mem hne hu]
    simp only [List.map_cons, List.map_nil, Chunk.toPiece, holeInner_placeholder]

-- ================================================================== braces

theorem exists_hole_consHole (c : Char) (rest : List Chunk) :
    ∃ hole, .hole hole ∈ Chunk.consHole c rest := by
  unfold Chunk.consHole
  split
  · exact ⟨_, List.mem_cons_self⟩
  · exact ⟨_, List.mem_cons_self⟩

/-- A text has a placeholder where it has an opening brace. -/
theorem exists_hole_iff : (∃ hole, .hole hole ∈ chunks t) ↔ '{' ∈ t := by
  induction t with
  | nil => simp [chunks, chunksFrom]
  | cons c t ih =>
      by_cases hc : c = '{'
      · subst hc
        have hopen : chunks ('{' :: t) = Chunk.consHole '{' (chunksFrom (.code 0) t) := rfl
        rw [hopen]
        exact iff_of_true (exists_hole_consHole _ _) List.mem_cons_self
      · simp only [chunks_plain hc, hole_mem_consPlain, ih, List.mem_cons, Ne.symm hc, false_or]

/-- There is a placeholder just where there is an opening brace. -/
theorem any_isPlaceholder_iff :
    ((chunks t).map Chunk.toPiece).any Piece.isPlaceholder = true ↔ '{' ∈ t := by
  rw [← exists_hole_iff, List.any_map, List.any_eq_true]
  constructor
  · rintro ⟨chunk, hmem, hchunk⟩
    cases chunk with
    | plain text => cases hchunk
    | hole text => exact ⟨text, hmem⟩
  · rintro ⟨hole, hmem⟩
    exact ⟨.hole hole, hmem, rfl⟩

/-- So a path is not fully known just if it has an opening brace. -/
theorem hasPlaceholder_iff : hasPlaceholder t = true ↔ '{' ∈ t := by
  unfold hasPlaceholder pieces
  split
  · next rest =>
    rw [List.any_cons, List.mem_cons, ← any_isPlaceholder_iff]
    simp [Piece.isPlaceholder]
  · exact any_isPlaceholder_iff

/-- A text that is one placeholder has a brace. -/
theorem brace_of_singlePlaceholder? {code : Text} (h : singlePlaceholder? t = some code) :
    '{' ∈ t := by
  unfold singlePlaceholder? at h
  split at h
  · next hpieces =>
    rw [← hasPlaceholder_iff, hasPlaceholder, hpieces]
    rfl
  · cases h

/-- Collapsing keeps the braces of a path. -/
theorem brace_mem_collapseDots : '{' ∈ collapseDots t ↔ '{' ∈ t := by
  constructor
  · intro h
    rcases Text.mem_joinSlash h with heq | ⟨s, hs, hin⟩
    · cases heq
    · exact (infix_of_mem_segments ((collapseSegments_sublist _).subset hs)).subset hin
  · intro h
    rw [← joinSlash_segments t] at h
    rcases Text.mem_joinSlash h with heq | ⟨s, hs, hin⟩
    · cases heq
    · exact (Text.infix_join (mem_collapseSegments hin hs)).subset hin

end ComponentPaths.Symbolic
