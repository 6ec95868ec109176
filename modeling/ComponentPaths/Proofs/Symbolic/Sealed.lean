/-
Sealed code: code that a placeholder can hold.

Code is `Sealed` when a scan that enters it right after an opening brace
reads to its end without leaving the placeholder, and with nothing left
open. Code stays sealed when it is put together (`Sealed.append`,
`sealed_join`), put in braces (`Sealed.braces`), and any text whatever is
sealed once it is quoted (`sealed_quote`). A placeholder that holds sealed
code is one chunk of its path (`chunks_placeholder`), and no separator in
it cuts the path (`segments_placeholder`).
-/
import ComponentPaths.Proofs.Symbolic.Segments

namespace ComponentPaths.Symbolic

-- =================================================================== scans

/-- The scan after a text that never leads out of the placeholder. -/
def Scan.inside : Scan → Text → Option Scan
  | scan, [] => some scan
  | scan, c :: t => if scan.step c = .outside then none else (scan.step c).inside t

/-- Code that closes every brace and quote it opens, and no others. -/
def Sealed (code : Text) : Prop :=
  Scan.inside (.code 0) code = some (.code 0)

instance (code : Text) : Decidable (Sealed code) :=
  inferInstanceAs (Decidable (_ = _))

/-- Code can be scanned in two parts. -/
theorem Scan.inside_append (scan : Scan) (t u : Text) :
    scan.inside (t ++ u) = (scan.inside t).bind fun next => next.inside u := by
  induction t generalizing scan with
  | nil => rfl
  | cons c t ih =>
      rw [List.cons_append]
      simp only [Scan.inside]
      split
      · rfl
      · exact ih _

/-- Sealed code is sealed one after the other. -/
theorem Sealed.append {code more : Text} (h : Sealed code) (hmore : Sealed more) :
    Sealed (code ++ more) := by
  unfold Sealed at h hmore ⊢
  rw [Scan.inside_append, h]
  exact hmore

/-- Code that is put together from sealed parts with a sealed separator. -/
theorem sealed_join {sep : Text} (hsep : Sealed sep) {parts : List Text}
    (h : ∀ code ∈ parts, Sealed code) : Sealed (Text.join sep parts) := by
  unfold Text.join
  induction parts with
  | nil => rfl
  | cons code parts ih =>
      have hcode := h code List.mem_cons_self
      have hrest := ih fun c hc => h c (List.mem_cons_of_mem _ hc)
      by_cases hp : parts = []
      · subst hp
        rwa [List.intercalate_singleton]
      · rw [List.intercalate_cons_of_ne_nil hp]
        exact (hcode.append hsep).append hrest

/-- Only the last closing brace leads out of a placeholder. -/
theorem Scan.eq_of_step_outside {scan : Scan} {c : Char} (hscan : scan ≠ .outside)
    (h : scan.step c = .outside) : scan = .code 0 ∧ c = '}' := by
  cases scan with
  | outside => exact absurd rfl hscan
  | code depth => cases depth <;> grind [Scan.step]
  | quoted depth mark => grind [Scan.step]
  | escaped depth mark => cases h

/-- The scan with one more brace open around it. -/
def Scan.deeper : Scan → Scan
  | .outside => .code 0
  | .code depth => .code (depth + 1)
  | .quoted depth mark => .quoted (depth + 1) mark
  | .escaped depth mark => .escaped (depth + 1) mark

/-- One more brace around makes no difference to a step that stays inside, -/
theorem Scan.step_deeper {scan : Scan} {c : Char} (hscan : scan ≠ .outside)
    (h : scan.step c ≠ .outside) :
    scan.deeper.step c = (scan.step c).deeper ∧ (scan.step c).deeper ≠ .outside := by
  cases scan with
  | outside => exact absurd rfl hscan
  | code depth =>
      cases depth with
      | zero => grind [Scan.step, Scan.deeper]
      | succ depth => grind [Scan.step, Scan.deeper]
  | quoted depth mark => grind [Scan.step, Scan.deeper]
  | escaped depth mark => simp [Scan.step, Scan.deeper]

/-- nor to a scan that does. -/
theorem Scan.inside_deeper {scan last : Scan} {t : Text} (hscan : scan ≠ .outside)
    (h : scan.inside t = some last) : scan.deeper.inside t = some last.deeper := by
  induction t generalizing scan with
  | nil =>
      cases h
      rfl
  | cons c t ih =>
      unfold Scan.inside at h
      split at h
      · cases h
      · next hin =>
        obtain ⟨hstep, hout⟩ := Scan.step_deeper hscan hin
        unfold Scan.inside
        rw [hstep, if_neg hout]
        exact ih hin h

/-- Sealed code in braces of its own is sealed. -/
theorem Sealed.braces {code : Text} (h : Sealed code) : Sealed ('{' :: code ++ ['}']) := by
  have hdeep := Scan.inside_deeper (by simp) h
  have hopen : Scan.inside (.code 0) ['{'] = some (.code 1) := rfl
  have hclose : Scan.inside (.code 1) ['}'] = some (.code 0) := rfl
  unfold Sealed
  rw [show '{' :: code ++ ['}'] = ['{'] ++ code ++ ['}'] from rfl, Scan.inside_append,
    Scan.inside_append, hopen]
  simp only [Option.bind_some]
  rw [show Scan.inside (.code 1) code = some (.code 1) from hdeep]
  exact hclose

/-- Inside of quotes, escapes keep the quote open. -/
theorem inside_flatMap_quoteChar (t : Text) :
    Scan.inside (.quoted 0 '\'') (t.flatMap quoteChar) = some (.quoted 0 '\'') := by
  induction t with
  | nil => rfl
  | cons c t ih =>
      have hchar : Scan.inside (.quoted 0 '\'') (quoteChar c) = some (.quoted 0 '\'') := by
        by_cases hback : c = '\\'
        · subst hback
          rfl
        · by_cases hquote : c = '\''
          · subst hquote
            rfl
          · simp [quoteChar, Scan.inside, Scan.step, hback, hquote]
      rw [List.flatMap_cons, Scan.inside_append, hchar]
      exact ih

/-- A quoted string is sealed, whatever it holds. -/
theorem sealed_quote (t : Text) : Sealed (quote t) := by
  have hopen : Scan.inside (.code 0) ['\''] = some (.quoted 0 '\'') := rfl
  unfold Sealed
  rw [show quote t = ['\''] ++ t.flatMap quoteChar ++ ['\''] from quote_eq_flatMap t,
    Scan.inside_append, Scan.inside_append, hopen]
  simp only [Option.bind_some]
  rw [inside_flatMap_quoteChar]
  rfl

-- ============================================================ placeholders

theorem placeholder_append (code rest : Text) :
    placeholder code ++ rest = '{' :: (code ++ '}' :: rest) := by
  simp [placeholder, Piece.render]

theorem Scan.run_of_inside {scan last : Scan} {t : Text} (h : scan.inside t = some last) :
    scan.run t = last := by
  induction t generalizing scan with
  | nil =>
      cases h
      rfl
  | cons c t ih =>
      unfold Scan.inside at h
      split at h
      · cases h
      · rw [Scan.run_cons]
        exact ih h

/-- A placeholder with sealed code is closed. -/
theorem closed_placeholder {code : Text} (h : Sealed code) : Closed (placeholder code) := by
  have hopen : Scan.outside.step '{' = .code 0 := rfl
  unfold Closed
  rw [← List.append_nil (placeholder code), placeholder_append, Scan.run_cons, hopen,
    Scan.run_append, Scan.run_of_inside h]
  rfl

theorem chunksFrom_inside {scan : Scan} {c : Char} (h : scan.step c ≠ .outside) (t : Text) :
    chunksFrom scan (c :: t) = Chunk.consHole c (chunksFrom (scan.step c) t) := by
  simp only [chunksFrom]
  generalize scan.step c = next at h ⊢
  split
  · exact absurd rfl h
  · exact absurd rfl h
  · rfl

/-- Sealed code up to its closing brace is one chunk. -/
theorem chunksFrom_sealed {scan : Scan} {t : Text} (h : scan.inside t = some (.code 0))
    (rest : Text) :
    chunksFrom scan (t ++ '}' :: rest) = .hole (t ++ ['}']) :: chunks rest := by
  induction t generalizing scan with
  | nil =>
      cases h
      rfl
  | cons c t ih =>
      unfold Scan.inside at h
      split at h
      · cases h
      · next hin =>
        rw [List.cons_append, chunksFrom_inside hin, ih h]
        rfl

/-- A placeholder with sealed code is a chunk of its own. -/
theorem chunks_placeholder {code : Text} (h : Sealed code) (rest : Text) :
    chunks (placeholder code ++ rest) = .hole (placeholder code) :: chunks rest := by
  have hopen : Scan.outside.step '{' = .code 0 := rfl
  rw [placeholder_append]
  unfold chunks
  rw [chunksFrom_inside (by rw [hopen]; simp), hopen, chunksFrom_sealed h]
  rfl

theorem chunks_plain {c : Char} (h : c ≠ '{') (t : Text) :
    chunks (c :: t) = Chunk.consPlain c (chunks t) := by
  simp only [chunks, chunksFrom, Scan.step_outside h]

theorem segmentsFrom_inside {scan : Scan} {c : Char} (hscan : scan ≠ .outside) (t : Text) :
    segmentsFrom scan (c :: t) = consFirst c (segmentsFrom (scan.step c) t) := by
  simp only [segmentsFrom]
  rw [if_neg fun h => hscan h.1]

/-- Sealed code up to its closing brace stays in the first segment. -/
theorem segmentsFrom_sealed {scan : Scan} {t : Text} (hscan : scan ≠ .outside)
    (h : scan.inside t = some (.code 0)) {rest first : Text} {more : List Text}
    (hrest : segments rest = first :: more) :
    segmentsFrom scan (t ++ '}' :: rest) = (t ++ '}' :: first) :: more := by
  induction t generalizing scan with
  | nil =>
      cases h
      have hclose : (Scan.code 0).step '}' = .outside := rfl
      rw [List.nil_append, segmentsFrom_inside (by simp), hclose]
      unfold segments at hrest
      rw [hrest]
      rfl
  | cons c t ih =>
      unfold Scan.inside at h
      split at h
      · cases h
      · next hin =>
        rw [List.cons_append, segmentsFrom_inside hscan, ih hin h]
        rfl

/-- A placeholder with sealed code is not cut. -/
theorem segments_placeholder {code : Text} (h : Sealed code) {rest first : Text}
    {more : List Text} (hrest : segments rest = first :: more) :
    segments (placeholder code ++ rest) = (placeholder code ++ first) :: more := by
  have hopen : Scan.outside.step '{' = .code 0 := rfl
  rw [placeholder_append, placeholder_append]
  unfold segments
  simp only [segmentsFrom]
  rw [if_neg (by simp), hopen, segmentsFrom_sealed (by simp) h hrest]
  rfl

end ComponentPaths.Symbolic
