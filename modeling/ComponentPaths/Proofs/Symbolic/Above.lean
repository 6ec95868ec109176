/-
What is above the last segment of a path.

Going up takes off one separator at the end, and then drops a segment. The
separator was an empty segment more, or the end of a placeholder that is not
closed (`segments_concat_slash`). Either way what is left are first segments of
the path (`prefix_of_dropLastSegment?`), and just those above the last one if
that one is not empty (`dropLastSegment?_of_last`).

First segments of a collapsed path are collapsed (`collapseDots_front`):
what could be resolved in them has been.
-/
import ComponentPaths.Proofs.Symbolic.Placeholders
import ComponentPaths.Proofs.Symbolic.Walking

namespace ComponentPaths.Symbolic

-- ============================================================ last segments

/-- In a placeholder that is not closed, every character goes to the last
segment. -/
theorem exists_segmentsFrom_concat {scan : Scan} {t : Text} (h : scan.run t ≠ .outside)
    (c : Char) :
    ∃ front last, segmentsFrom scan t = front ++ [last]
      ∧ segmentsFrom scan (t ++ [c]) = front ++ [last ++ [c]] := by
  induction t generalizing scan with
  | nil =>
      have hscan : scan ≠ .outside := h
      exact ⟨[], [], rfl, segmentsFrom_inside hscan []⟩
  | cons d t ih =>
      rw [Scan.run_cons] at h
      obtain ⟨front, last, ht, htc⟩ := ih h
      by_cases hcut : scan = .outside ∧ d = '/'
      · obtain ⟨rfl, rfl⟩ := hcut
        have hnext : Scan.outside.step '/' = .outside := rfl
        rw [hnext] at ht htc
        refine ⟨[] :: front, last, ?_, ?_⟩
        · simp only [segmentsFrom, true_and, if_true, ht, List.cons_append]
        · simp only [List.cons_append, segmentsFrom, true_and, if_true, htc]
      · simp only [List.cons_append, segmentsFrom, if_neg hcut, ht, htc]
        cases front with
        | nil => exact ⟨[], d :: last, rfl, rfl⟩
        | cons s front => exact ⟨(d :: s) :: front, last, rfl, rfl⟩

/-- A separator at the end adds an empty segment, or belongs to the last one. -/
theorem segments_concat_slash (t : Text) :
    segments (t ++ ['/']) = segments t ++ [[]]
    ∨ ∃ front last, segments t = front ++ [last]
      ∧ segments (t ++ ['/']) = front ++ [last ++ ['/']] := by
  by_cases hclosed : Closed t
  · exact Or.inl (segments_append_slash hclosed [])
  · exact Or.inr (exists_segmentsFrom_concat hclosed '/')

/-- The path of the segments above the last one. -/
def above? (front : List Text) : Option Text :=
  if front = [] then none
  else some (if (Text.joinSlash front).isEmpty then ['/'] else Text.joinSlash front)

/-- A path that starts with a segment is never empty. -/
theorem above?_of_head {first : Text} (h : first ≠ []) (front : List Text) :
    above? (first :: front) = some (Text.joinSlash (first :: front)) := by
  have hne : (Text.joinSlash (first :: front)).isEmpty = false := by
    obtain ⟨c, first, rfl⟩ := List.exists_cons_of_ne_nil h
    cases front with
    | nil => rfl
    | cons s front =>
        rw [Text.joinSlash_cons _ (List.cons_ne_nil _ _)]
        rfl
  simp [above?, hne]

/-- A path without a separator at its end, unless that is all of it. -/
def withoutLastSlash (path : Text) : Text :=
  if path.length > 1 then (Text.dropTail? ['/'] path).getD path else path

/-- Either there is no separator to take off, or it was the last character. -/
theorem withoutLastSlash_cases (path : Text) :
    withoutLastSlash path = path ∨ withoutLastSlash path ++ ['/'] = path := by
  unfold withoutLastSlash
  split
  · cases hdrop : Text.dropTail? ['/'] path with
    | none => exact Or.inl rfl
    | some u => exact Or.inr (eq_of_dropTail? hdrop).symm
  · exact Or.inl rfl

theorem withoutLastSlash_concat {t : Text} (h : t ≠ []) : withoutLastSlash (t ++ ['/']) = t := by
  have hlength : (t ++ ['/']).length > 1 := by
    have hpos := List.length_pos_iff.2 h
    rw [List.length_append, List.length_singleton]
    omega
  unfold withoutLastSlash
  rw [if_pos hlength]
  simp [Text.dropTail?, Text.dropHead?]

/-- A path is cut above its last segment, after one separator at its end has been
taken off. -/
theorem dropLastSegment?_eq (path : Text) :
    dropLastSegment? path = above? (segments (withoutLastSlash path)).dropLast := by
  unfold dropLastSegment? withoutLastSlash
  dsimp only
  generalize (if path.length > 1 then (Text.dropTail? ['/'] path).getD path else path) = t
  cases hall : segments t with
  | nil => exact absurd hall (segments_ne_nil t)
  | cons s rest =>
      cases rest with
      | nil => rfl
      | cons s' rest => rfl

/-- Where the last segment is not empty, a separator at the end is a part of it. -/
theorem dropLastSegment?_of_last {path last : Text} {front : List Text}
    (h : segments path = front ++ [last]) (hlast : last ≠ []) :
    dropLastSegment? path = above? front := by
  rw [dropLastSegment?_eq]
  congr 1
  have ht := withoutLastSlash_cases path
  generalize withoutLastSlash path = t at ht ⊢
  rcases ht with rfl | rfl
  · rw [h, List.dropLast_concat]
  · rcases segments_concat_slash t with hcut | ⟨front', last', ht, hcut⟩
    · -- a separator that cuts leaves an empty segment
      rw [hcut] at h
      obtain ⟨-, hnil⟩ := List.append_inj' h rfl
      cases hnil
      exact absurd rfl hlast
    · rw [hcut] at h
      obtain ⟨rfl, -⟩ := List.append_inj' h rfl
      rw [ht, List.dropLast_concat]

/-- The segments above the last one, where an empty segment at the end does not
count. -/
def segmentsAbove (segs : List Text) : List Text :=
  (if segs.getLast? = some [] then segs.dropLast else segs).dropLast

theorem segmentsAbove_of_last {front : List Text} {last : Text} (h : last ≠ []) :
    segmentsAbove (front ++ [last]) = front := by
  unfold segmentsAbove
  rw [List.getLast?_concat, if_neg (by simpa using h), List.dropLast_concat]

theorem segmentsAbove_of_empty (front : List Text) :
    segmentsAbove (front ++ [[]]) = front.dropLast := by
  unfold segmentsAbove
  rw [List.getLast?_concat, if_pos rfl, List.dropLast_concat]

/-- Going up drops segments from the end. -/
theorem prefix_segmentsAbove (segs : List Text) : segmentsAbove segs <+: segs := by
  unfold segmentsAbove
  split
  · exact (List.dropLast_prefix _).trans (List.dropLast_prefix _)
  · exact List.dropLast_prefix _

/-- What going up leaves of a path is the path of the segments above the last one.
From the top there is no way up. -/
theorem dropLastSegment?_eq_above? {path : Text} (h : path ≠ "/") :
    dropLastSegment? path = above? (segmentsAbove (segments path)) := by
  obtain ⟨front, last, hsegs⟩ : ∃ front last, segments path = front ++ [last] :=
    ⟨_, _, (List.dropLast_concat_getLast (segments_ne_nil path)).symm⟩
  rw [hsegs]
  by_cases hlast : last = []
  · subst hlast
    rw [segmentsAbove_of_empty]
    have hwhole := joinSlash_segments path
    rw [hsegs] at hwhole
    by_cases hfront : front = []
    · subst hfront
      rw [← hwhole]
      rfl
    · rw [Text.joinSlash_append hfront (List.cons_ne_nil _ _), Text.joinSlash_singleton] at hwhole
      have hsegmented : Segmented front := (segmented_segments path).sublist (by
        rw [hsegs]
        exact List.sublist_append_left _ _)
      have hne : Text.joinSlash front ≠ [] := by
        intro hnil
        rw [hnil] at hwhole
        exact h hwhole.symm
      rw [← hwhole, dropLastSegment?_eq, withoutLastSlash_concat hne,
        segments_joinSlash hsegmented hfront]
  · rw [segmentsAbove_of_last hlast, dropLastSegment?_of_last hsegs hlast]

/-- What is left above the last segment are first segments of the path. -/
theorem prefix_of_dropLastSegment? {path left : Text} (h : dropLastSegment? path = some left) :
    left = "/" ∨ ∃ front, front ≠ [] ∧ front <+: segments path ∧ left = Text.joinSlash front := by
  have hprefix : (segments (withoutLastSlash path)).dropLast <+: segments path := by
    have ht := withoutLastSlash_cases path
    generalize withoutLastSlash path = t at ht ⊢
    rcases ht with rfl | rfl
    · exact List.dropLast_prefix _
    · rcases segments_concat_slash t with hcut | ⟨front, last, ht, hcut⟩
      · rw [hcut]
        exact (List.dropLast_prefix _).trans (List.prefix_append _ _)
      · rw [ht, hcut, List.dropLast_concat]
        exact List.prefix_append _ _
  rw [dropLastSegment?_eq] at h
  unfold above? at h
  split at h
  · cases h
  · next hne =>
    cases h
    split
    · exact Or.inl rfl
    · exact Or.inr ⟨_, hne, hprefix, rfl⟩

-- ========================================================= collapsed paths

theorem collapseSegments_of_collapsed {path : Text} (h : collapseDots path = path) :
    collapseSegments (segments path) = segments path := by
  by_cases hnone : collapseSegments (segments path) = []
  · -- a path that collapses to nothing is not nothing
    have hpath : path = [] := by
      rw [← h, collapseDots, hnone]
      rfl
    rw [hpath] at hnone
    cases hnone
  · rw [← segments_collapseDots hnone, h]

theorem mem_segments_of_collapseDots {path s : Text} (h : s ∈ segments (collapseDots path))
    (hne : s ≠ []) : s ∈ segments path := by
  by_cases hnone : collapseSegments (segments path) = []
  · rw [collapseDots, hnone] at h
    exact absurd (List.mem_singleton.1 h) hne
  · rw [segments_collapseDots hnone] at h
    exact (collapseSegments_sublist _).subset h

/-- The first segments of a collapsed path make a collapsed path. -/
theorem collapseDots_front {path : Text} (h : collapseDots path = path) {front : List Text}
    (hne : front ≠ []) (hfront : front <+: segments path) :
    collapseDots (Text.joinSlash front) = Text.joinSlash front := by
  have hsegmented : Segmented front := (segmented_segments path).sublist hfront.sublist
  have hstack : Pushed (segments path).reverse := by
    rw [← collapseSegments_of_collapsed h]
    cases segments path with
    | nil => trivial
    | cons first rest =>
        simp only [collapseSegments, List.reverse_reverse]
        exact Pushed.foldl (show Pushed [first] from trivial) rest
  have hpushed : Pushed front.reverse := hstack.suffix (List.reverse_suffix.2 hfront)
  obtain ⟨first, others, rfl⟩ := List.exists_cons_of_ne_nil hne
  rw [List.reverse_cons] at hpushed
  have hagain := hpushed.foldl_eq
  rw [List.reverse_reverse] at hagain
  unfold collapseDots
  rw [segments_joinSlash hsegmented hne]
  simp only [collapseSegments, hagain, List.reverse_append, List.reverse_reverse]
  rfl

end ComponentPaths.Symbolic
