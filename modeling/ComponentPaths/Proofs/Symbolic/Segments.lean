/-
Segments and pieces of symbolic paths, as laws of the one scanner.

`Scan.run` is the scanner over a whole text, and a text is `Closed` when a
scan that enters it outside of placeholders leaves it outside of them. The
two facts that everything about segments follows from:

- `segmentsFrom_append_slash`: a separator that the scanner meets outside
  of placeholders cuts the list of segments in two.
- `segmented_segments`: the segments of a path are never cut further, and
  all but the last are closed. A list with these two properties
  (`Segmented`) is read back from its joined form (`segments_joinSlash`),
  and so is every sublist of it: a component takes the first segments of a
  path, leaves the rest to the relative path, and nothing is lost.

For pieces there is one law, `flatMap_text_chunks`: the chunks of a text
are that text. A text without the root anchor therefore has a PHP
expression (`toExpression?_isSome`).
-/
import ComponentPaths.Symbolic.Expression

namespace ComponentPaths

-- ============================================================ joined texts

@[simp] theorem Text.joinSlash_nil : Text.joinSlash [] = [] := rfl

@[simp] theorem Text.joinSlash_singleton (s : Text) : Text.joinSlash [s] = s := by
  simp [Text.joinSlash, Text.join]

theorem Text.joinSlash_cons {parts : List Text} (s : Text) (h : parts ≠ []) :
    Text.joinSlash (s :: parts) = s ++ '/' :: Text.joinSlash parts := by
  simp [Text.joinSlash, Text.join, List.intercalate_cons_of_ne_nil h]

/-- Two paths are joined by a separator. -/
theorem Text.joinSlash_append {front back : List Text} (hf : front ≠ [])
    (hb : back ≠ []) :
    Text.joinSlash (front ++ back)
      = Text.joinSlash front ++ '/' :: Text.joinSlash back := by
  induction front with
  | nil => exact absurd rfl hf
  | cons s front ih =>
      cases front with
      | nil => rw [List.singleton_append, joinSlash_cons s hb, joinSlash_singleton]
      | cons s' front =>
          rw [List.cons_append, joinSlash_cons s (by simp), ih (by simp),
            joinSlash_cons s (by simp), List.append_assoc, List.cons_append]

/-- A path is cut at each separator. -/
theorem Text.splitSlash_append_slash (t u : Text) :
    splitSlash (t ++ '/' :: u) = splitSlash t ++ splitSlash u :=
  List.splitOn_append_cons_self ..

theorem Text.splitSlash_cons_slash (t : Text) : splitSlash ('/' :: t) = [] :: splitSlash t := by
  rw [← List.nil_append ('/' :: t), splitSlash_append_slash]
  rfl

theorem Text.splitSlash_ne_nil (t : Text) : splitSlash t ≠ [] :=
  List.splitOn_ne_nil '/' t

/-- A path that is cut can be joined again. -/
theorem Text.joinSlash_splitSlash (t : Text) : joinSlash (splitSlash t) = t :=
  List.intercalate_splitOn '/'

/-- What follows a beginning. -/
theorem Text.dropHead?_eq_some_iff {head t rest : Text} :
    dropHead? head t = some rest ↔ t = head ++ rest := by
  induction head generalizing t with
  | nil => simp [dropHead?, eq_comm]
  | cons h head ih =>
      cases t with
      | nil => simp [dropHead?]
      | cons c t =>
          by_cases hc : h = c
          · subst hc
            simp [dropHead?, ih]
          · simp [dropHead?, hc, Ne.symm hc]

/-- A joined text holds the characters of its parts, and separators. -/
theorem Text.mem_joinSlash {c : Char} {parts : List Text}
    (h : c ∈ Text.joinSlash parts) : c = '/' ∨ ∃ s ∈ parts, c ∈ s := by
  induction parts with
  | nil => exact absurd h (by simp)
  | cons s parts ih =>
      by_cases hp : parts = []
      · subst hp
        rw [joinSlash_singleton] at h
        exact Or.inr ⟨s, List.mem_cons_self, h⟩
      · rw [joinSlash_cons s hp, List.mem_append, List.mem_cons] at h
        rcases h with h | h | h
        · exact Or.inr ⟨s, List.mem_cons_self, h⟩
        · exact Or.inl h
        · rcases ih h with h | ⟨t, ht, hc⟩
          · exact Or.inl h
          · exact Or.inr ⟨t, List.mem_cons_of_mem _ ht, hc⟩

/-- A part of a joined text occurs in it. -/
theorem Text.infix_join {s sep : Text} {parts : List Text} (h : s ∈ parts) :
    s <:+: Text.join sep parts := by
  unfold Text.join
  induction parts with
  | nil => cases h
  | cons t parts ih =>
      by_cases hp : parts = []
      · subst hp
        rw [List.mem_singleton] at h
        rewrite [h, List.intercalate_singleton]
        exact List.infix_rfl
      · rw [List.intercalate_cons_of_ne_nil hp]
        rcases List.mem_cons.1 h with rfl | h
        · rw [List.append_assoc]
          exact (List.prefix_append _ _).isInfix
        · exact (ih h).trans (List.suffix_append _ _).isInfix

/-- Names that are not empty make no empty path. -/
theorem Text.eq_nil_of_joinSlash {names : List Text} (hne : ∀ s ∈ names, s ≠ [])
    (h : joinSlash names = []) : names = [] := by
  cases names with
  | nil => rfl
  | cons s names =>
      have hin : s <:+: joinSlash (s :: names) := infix_join List.mem_cons_self
      rw [h] at hin
      exact absurd (List.infix_nil.1 hin) (hne s List.mem_cons_self)

-- ============================================================= directories

/-- A path with a directory is that directory, a separator and a name. -/
theorem Text.parentDir_eq (t : Text) :
    Text.parentDir t = [] ∨ ∃ name, t = Text.parentDir t ++ '/' :: name := by
  unfold Text.parentDir
  cases hdrop : t.reverse.dropWhile (· != '/') with
  | nil => exact Or.inl rfl
  | cons c before =>
      right
      have hc : c = '/' := by
        have hne : t.reverse.dropWhile (· != '/') ≠ [] := by
          rw [hdrop]
          exact List.cons_ne_nil _ _
        have hhead := List.head_dropWhile_not (· != '/') hne
        simp only [hdrop, List.head_cons] at hhead
        simpa using hhead
      refine ⟨(t.reverse.takeWhile (· != '/')).reverse, ?_⟩
      have hsplit : t.reverse.takeWhile (· != '/') ++ '/' :: before = t.reverse := by
        rw [hc] at hdrop
        rw [← hdrop, List.takeWhile_append_dropWhile]
      have hback := congrArg List.reverse hsplit
      rw [List.reverse_append, List.reverse_cons, List.append_assoc, List.reverse_reverse] at hback
      exact hback.symm

/-- A parent directory is written in characters of the path. -/
theorem Text.parentDir_subset (t : Text) : Text.parentDir t ⊆ t := by
  rcases Text.parentDir_eq t with h | ⟨name, h⟩
  · rw [h]
    exact List.nil_subset _
  · intro c hc
    rw [h]
    exact List.mem_append_left _ hc

namespace Symbolic

-- ============================================================= whole scans

/-- The scan after a text. -/
def Scan.run (scan : Scan) (t : Text) : Scan :=
  t.foldl Scan.step scan

@[simp] theorem Scan.run_nil (scan : Scan) : scan.run [] = scan := rfl

@[simp] theorem Scan.run_cons (scan : Scan) (c : Char) (t : Text) :
    scan.run (c :: t) = (scan.step c).run t := rfl

/-- A text can be scanned in two parts. -/
theorem Scan.run_append (scan : Scan) (t u : Text) :
    scan.run (t ++ u) = (scan.run t).run u := by
  unfold Scan.run
  rw [List.foldl_append]

/-- A text whose placeholders are all closed. -/
def Closed (t : Text) : Prop :=
  Scan.outside.run t = .outside

instance (t : Text) : Decidable (Closed t) :=
  inferInstanceAs (Decidable (_ = _))

/-- Closed texts are closed one after the other. -/
theorem Closed.append {t u : Text} (ht : Closed t) (hu : Closed u) : Closed (t ++ u) := by
  unfold Closed at ht hu ⊢
  rw [Scan.run_append, ht, hu]

/-- Only an opening brace takes a scan into a placeholder. -/
theorem Scan.step_outside {c : Char} (h : c ≠ '{') : Scan.outside.step c = .outside := by
  simp [Scan.step, h]

/-- Without a brace, a scan stays outside. -/
theorem Scan.run_outside {t : Text} (h : '{' ∉ t) : Scan.outside.run t = .outside := by
  induction t with
  | nil => rfl
  | cons c t ih =>
      rw [List.mem_cons, not_or] at h
      rw [Scan.run_cons, Scan.step_outside (Ne.symm h.1)]
      exact ih h.2

theorem closed_of_not_mem {t : Text} (h : '{' ∉ t) : Closed t :=
  Scan.run_outside h

-- ================================================================ segments

theorem consFirst_append {c : Char} {parts rest : List Text} (h : parts ≠ []) :
    consFirst c (parts ++ rest) = consFirst c parts ++ rest := by
  cases parts with
  | nil => exact absurd rfl h
  | cons s parts => rfl

/-- There always is a segment, if only an empty one. -/
theorem segmentsFrom_ne_nil (scan : Scan) (t : Text) : segmentsFrom scan t ≠ [] := by
  cases t with
  | nil => simp [segmentsFrom]
  | cons c t =>
      unfold segmentsFrom
      split
      · simp
      · cases segmentsFrom (scan.step c) t <;> simp [consFirst]

theorem segments_ne_nil (t : Text) : segments t ≠ [] :=
  segmentsFrom_ne_nil _ t

/-- A separator outside of placeholders cuts the segments in two. -/
theorem segmentsFrom_append_slash {scan : Scan} {t : Text}
    (h : scan.run t = .outside) (u : Text) :
    segmentsFrom scan (t ++ '/' :: u) = segmentsFrom scan t ++ segments u := by
  induction t generalizing scan with
  | nil =>
      have hs : scan = .outside := h
      subst hs
      simp [segmentsFrom, segments]
  | cons c t ih =>
      rw [Scan.run_cons] at h
      rw [List.cons_append]
      by_cases hc : scan = .outside ∧ c = '/'
      · obtain ⟨rfl, rfl⟩ := hc
        have hrun : Scan.outside.run t = .outside := h
        simp only [segmentsFrom, true_and, if_true, List.cons_append]
        rw [ih hrun]
      · simp only [segmentsFrom, if_neg hc]
        rw [ih h, consFirst_append (segmentsFrom_ne_nil _ _)]

/-- A separator after a closed text cuts. -/
theorem segments_append_slash {t : Text} (h : Closed t) (u : Text) :
    segments (t ++ '/' :: u) = segments t ++ segments u :=
  segmentsFrom_append_slash h u

/-- A separator in front leaves an empty segment. -/
theorem segments_cons_slash (u : Text) : segments ('/' :: u) = [] :: segments u := by
  simp [segments, segmentsFrom]

/-- The root is a segment of its own. -/
theorem segments_root (u : Text) :
    segments ('@' :: '/' :: u) = ("@" : Text) :: segments u :=
  segments_append_slash (t := ['@']) rfl u

/-- Text without braces is cut at every separator. -/
theorem segments_eq_splitSlash {t : Text} (h : '{' ∉ t) :
    segments t = Text.splitSlash t := by
  unfold segments Text.splitSlash
  induction t with
  | nil => rfl
  | cons c t ih =>
      rw [List.mem_cons, not_or] at h
      rw [List.splitOn_cons_eq_if_modifyHead, ← ih h.2]
      by_cases hc : c = '/'
      · simp [segmentsFrom, hc]
      · have hne := segmentsFrom_ne_nil .outside t
        simp only [segmentsFrom, true_and, if_neg hc, beq_iff_eq,
          Scan.step_outside (Ne.symm h.1)]
        cases hs : segmentsFrom .outside t with
        | nil => exact absurd hs hne
        | cons s rest => rfl

/-- Joining the segments gives the text back. -/
theorem joinSlash_segmentsFrom (scan : Scan) (t : Text) :
    Text.joinSlash (segmentsFrom scan t) = t := by
  induction t generalizing scan with
  | nil => rfl
  | cons c t ih =>
      have hne := segmentsFrom_ne_nil
      by_cases hc : scan = .outside ∧ c = '/'
      · simp only [segmentsFrom, if_pos hc]
        rw [Text.joinSlash_cons _ (hne _ _), ih, hc.2]
        rfl
      · simp only [segmentsFrom, if_neg hc]
        have hrest := ih (scan.step c)
        cases hs : segmentsFrom (scan.step c) t with
        | nil => exact absurd hs (hne _ _)
        | cons s rest =>
            rw [hs] at hrest
            cases rest with
            | nil =>
                rw [Text.joinSlash_singleton] at hrest
                rw [consFirst, Text.joinSlash_singleton, hrest]
            | cons s' rest =>
                rw [Text.joinSlash_cons _ (by simp)] at hrest
                rw [consFirst, Text.joinSlash_cons _ (by simp), List.cons_append, hrest]

/-- The segments of a path join to the path. -/
theorem joinSlash_segments (t : Text) : Text.joinSlash (segments t) = t :=
  joinSlash_segmentsFrom _ t

/-- A segment occurs in its path. -/
theorem infix_of_mem_segments {s t : Text} (h : s ∈ segments t) : s <:+: t := by
  have hin : s <:+: Text.joinSlash (segments t) := Text.infix_join h
  rwa [joinSlash_segments] at hin

/-- Proper segments are those that are not empty. -/
theorem mem_properSegments {s t : Text} :
    s ∈ properSegments t ↔ s ∈ segments t ∧ s ≠ [] := by
  unfold properSegments
  rw [List.mem_filter]
  cases s <;> simp

/-- The characters of a proper segment are characters of the path. -/
theorem mem_of_mem_properSegments {c : Char} {s t : Text}
    (hs : s ∈ properSegments t) (hc : c ∈ s) : c ∈ t :=
  (infix_of_mem_segments (mem_properSegments.1 hs).1).subset hc

-- ======================================================= lists of segments

/-- Texts that are the segments of the path they join to: none is cut
further, and all but the last close what they open. -/
structure Segmented (parts : List Text) : Prop where
  whole : ∀ s ∈ parts, segments s = [s]
  closed : parts.Pairwise fun s _ => Closed s

/-- Segments can be left out. -/
theorem Segmented.sublist {some all : List Text} (h : Segmented all)
    (hs : some.Sublist all) : Segmented some :=
  ⟨fun s hmem => h.whole s (hs.subset hmem), h.closed.sublist hs⟩

theorem segmented_nil : Segmented [] :=
  ⟨fun _ hs => (by cases hs), List.Pairwise.nil⟩

/-- A segment can be put in front. -/
theorem Segmented.cons {s : Text} {parts : List Text} (hs : segments s = [s])
    (hc : Closed s) (h : Segmented parts) : Segmented (s :: parts) := by
  refine ⟨fun t ht => ?_, List.pairwise_cons.2 ⟨fun _ _ => hc, h.closed⟩⟩
  rcases List.mem_cons.1 ht with rfl | ht
  · exact hs
  · exact h.whole t ht

/-- Closed segments can be followed by any others. -/
theorem Segmented.append {front back : List Text} (hf : Segmented front)
    (hc : ∀ s ∈ front, Closed s) (hb : Segmented back) : Segmented (front ++ back) := by
  induction front with
  | nil => exact hb
  | cons s front ih =>
      refine Segmented.cons (hf.whole s List.mem_cons_self) (hc s List.mem_cons_self) ?_
      exact ih (hf.sublist (List.sublist_cons_self ..))
        fun t ht => hc t (List.mem_cons_of_mem _ ht)

/-- The state of a scan at a cut: what is read from a scan splits into the
rest of the segment under way and the segments after it. -/
private theorem segmentsFrom_shape (scan : Scan) (t : Text) :
    ∃ first rest, segmentsFrom scan t = first :: rest
      ∧ segmentsFrom scan first = [first]
      ∧ (rest ≠ [] → scan.run first = .outside)
      ∧ Segmented rest := by
  induction t generalizing scan with
  | nil => exact ⟨[], [], rfl, rfl, fun h => absurd rfl h, segmented_nil⟩
  | cons c t ih =>
      by_cases hc : scan = .outside ∧ c = '/'
      · -- the segment under way ends here, and the next one is a whole one
        obtain ⟨first, rest, heq, hone, hout, hrest⟩ := ih .outside
        refine ⟨[], first :: rest, ?_, rfl, fun _ => hc.1, ?_, ?_⟩
        · simp only [segmentsFrom, if_pos hc]
          rw [heq]
        · intro s hs
          rcases List.mem_cons.1 hs with rfl | hs
          · exact hone
          · exact hrest.whole s hs
        · refine List.pairwise_cons.2 ⟨fun u hu => ?_, hrest.closed⟩
          exact hout (List.ne_nil_of_mem hu)
      · obtain ⟨first, rest, heq, hone, hout, hrest⟩ := ih (scan.step c)
        refine ⟨c :: first, rest, ?_, ?_, ?_, hrest⟩
        · simp only [segmentsFrom, if_neg hc]
          rw [heq]
          rfl
        · simp only [segmentsFrom, if_neg hc]
          rw [hone]
          rfl
        · intro hne
          rw [Scan.run_cons]
          exact hout hne

/-- Segments are not cut any further, and are closed, but for the last. -/
theorem segmented_segments (t : Text) : Segmented (segments t) := by
  obtain ⟨first, rest, heq, hone, hout, hrest⟩ := segmentsFrom_shape .outside t
  unfold segments
  rw [heq]
  refine ⟨fun s hs => ?_, List.pairwise_cons.2 ⟨fun u hu => ?_, hrest.closed⟩⟩
  · rcases List.mem_cons.1 hs with rfl | hs
    · exact hone
    · exact hrest.whole s hs
  · exact hout (List.ne_nil_of_mem hu)

theorem segmented_properSegments (t : Text) : Segmented (properSegments t) :=
  (segmented_segments t).sublist List.filter_sublist

/-- Segments are read back from the path they join to. -/
theorem segments_joinSlash {parts : List Text} (h : Segmented parts) (hne : parts ≠ []) :
    segments (Text.joinSlash parts) = parts := by
  induction parts with
  | nil => exact absurd rfl hne
  | cons s parts ih =>
      have hs := h.whole s List.mem_cons_self
      by_cases hp : parts = []
      · subst hp
        rw [Text.joinSlash_singleton, hs]
      · have hclosed : Closed s := by
          obtain ⟨u, hu⟩ := List.exists_mem_of_ne_nil parts hp
          exact (List.pairwise_cons.1 h.closed).1 u hu
        rw [Text.joinSlash_cons s hp, segments_append_slash hclosed, hs,
          ih (h.sublist (List.sublist_cons_self ..)) hp]
        rfl

/-- Segments that are not empty come back from the path they join to. -/
theorem properSegments_joinSlash {parts : List Text} (h : Segmented parts)
    (hne : ∀ s ∈ parts, s ≠ []) :
    properSegments (Text.joinSlash parts) = parts := by
  by_cases hp : parts = []
  · subst hp
    rfl
  · unfold properSegments
    rw [segments_joinSlash h hp, List.filter_eq_self]
    intro s hs
    have := hne s hs
    cases s <;> simp_all

/-- Some of the proper segments of a path are read back from the path they
join to. -/
theorem properSegments_joinSlash_of_sublist {parts : List Text} {t : Text}
    (h : parts.Sublist (properSegments t)) :
    Segmented parts ∧ (∀ s ∈ parts, s ≠ [])
      ∧ properSegments (Text.joinSlash parts) = parts := by
  have hseg := (segmented_properSegments t).sublist h
  have hne : ∀ s ∈ parts, s ≠ [] := fun s hs => (mem_properSegments.1 (h.subset hs)).2
  exact ⟨hseg, hne, properSegments_joinSlash hseg hne⟩

/-- Proper segments of two paths with a separator between them. -/
theorem properSegments_append_slash {t : Text} (h : Closed t) (u : Text) :
    properSegments (t ++ '/' :: u) = properSegments t ++ properSegments u := by
  unfold properSegments
  rw [segments_append_slash h, List.filter_append]

/-- A separator in front adds no proper segment. -/
theorem properSegments_cons_slash (u : Text) :
    properSegments ('/' :: u) = properSegments u := by
  unfold properSegments
  rw [segments_cons_slash]
  rfl

theorem properSegments_root (u : Text) :
    properSegments ('@' :: '/' :: u) = ("@" : Text) :: properSegments u :=
  properSegments_append_slash (t := ['@']) rfl u

-- ================================================================== chunks

/-- The text of a chunk. -/
def Chunk.text : Chunk → Text
  | .plain t => t
  | .hole t => t

theorem Chunk.flatMap_text_consPlain (c : Char) (rest : List Chunk) :
    (Chunk.consPlain c rest).flatMap Chunk.text = c :: rest.flatMap Chunk.text := by
  unfold Chunk.consPlain
  split <;> rfl

theorem Chunk.flatMap_text_consHole (c : Char) (rest : List Chunk) :
    (Chunk.consHole c rest).flatMap Chunk.text = c :: rest.flatMap Chunk.text := by
  unfold Chunk.consHole
  split <;> rfl

/-- The chunks of a text are that text. -/
theorem flatMap_text_chunksFrom (scan : Scan) (t : Text) :
    (chunksFrom scan t).flatMap Chunk.text = t := by
  induction t generalizing scan with
  | nil => rfl
  | cons c t ih =>
      simp only [chunksFrom]
      split
      · rw [Chunk.flatMap_text_consPlain, ih]
      · rw [List.flatMap_cons, ih]
        rfl
      · rw [Chunk.flatMap_text_consHole, ih]

/-- The chunks of a text make up the text. -/
theorem flatMap_text_chunks (t : Text) : (chunks t).flatMap Chunk.text = t :=
  flatMap_text_chunksFrom _ t

/-- Characters of a chunk are characters of the text. -/
theorem mem_of_mem_chunk {c : Char} {chunk : Chunk} {t : Text}
    (hchunk : chunk ∈ chunks t) (hc : c ∈ chunk.text) : c ∈ t := by
  rw [← flatMap_text_chunks t]
  exact List.mem_flatMap.2 ⟨chunk, hchunk, hc⟩

-- ============================================================= expressions

/-- Without the root anchor at its start, a text has no root piece. -/
theorem pieces_of_not_anchored {t : Text} (h : '@' ∉ t) :
    pieces t = (chunks t).map Chunk.toPiece := by
  unfold pieces
  split
  · exact absurd List.mem_cons_self h
  · rfl

/-- A chunk that does not mention the root has an operand. -/
theorem toOperand?_isSome_of_chunk {chunk : Chunk} (h : '@' ∉ chunk.text) :
    (chunk.toPiece.toOperand?).isSome := by
  cases chunk with
  | plain t =>
      have ht : t.contains '@' = false := by simpa [Chunk.text] using h
      simp only [Chunk.toPiece, Piece.toOperand?, ht]
      rfl
  | hole t => rfl

/-- Pieces that all have an operand make an expression. -/
theorem mapM_toOperand?_isSome {parts : List Piece}
    (h : ∀ piece ∈ parts, (piece.toOperand?).isSome) :
    (parts.mapM Piece.toOperand?).isSome := by
  induction parts with
  | nil => rfl
  | cons piece parts ih =>
      have hfirst := h piece List.mem_cons_self
      have hrest := ih fun other hother => h other (List.mem_cons_of_mem _ hother)
      rw [Option.isSome_iff_exists] at hfirst hrest
      obtain ⟨operand, hoperand⟩ := hfirst
      obtain ⟨operands, hoperands⟩ := hrest
      rw [List.mapM_cons, hoperand, hoperands]
      rfl

/-- A text that never mentions the root has an expression. -/
theorem toExpression?_isSome {t : Text} (h : '@' ∉ t) : (toExpression? t).isSome := by
  unfold toExpression?
  rw [pieces_of_not_anchored h]
  split
  · rfl
  · rw [Option.isSome_map]
    refine mapM_toOperand?_isSome fun piece hpiece => ?_
    obtain ⟨chunk, hchunk, rfl⟩ := List.mem_map.1 hpiece
    exact toOperand?_isSome_of_chunk fun hat => h (mem_of_mem_chunk hchunk hat)

end Symbolic

end ComponentPaths
