/-
Collapsing dot segments.

Collapsing keeps a stack of segments. One step never does more than put its
segment on top (`pushSegment_sublist`), so what is left is a sublist of what
was there, and a path that collapsing leaves alone is one where every step
pushed. What that says of the path is local: `Settled` looks at one segment
and the one before it. A settled path stays settled without its empty
segments, and is pushed as it is on any stack that ends where it begins
(`foldl_settled`).

The other half is going up. Over segments that name one directory each,
every step up takes one back (`foldl_up`). Together: the steps of
`Relative.steps`, taken from the directory they start in, lead to their
target (`foldl_steps`).
-/
import ComponentPaths.Decision.Relative
import ComponentPaths.Proofs.Symbolic.Segments
import ComponentPaths.Symbolic.Normal

namespace ComponentPaths

namespace Symbolic

-- ================================================================ one step

theorem dropEmptyTop_suffix (stack : List Text) : dropEmptyTop stack <:+ stack := by
  fun_induction dropEmptyTop stack with
  | case1 below rest ih => exact ih.trans (List.suffix_cons _ _)
  | case2 stack _ => exact List.suffix_refl stack

theorem dropEmptyTop_cons {top : Text} (h : top ≠ []) (stack : List Text) :
    dropEmptyTop (top :: stack) = top :: stack := by
  cases top with
  | nil => exact absurd rfl h
  | cons c top => rfl

/-- Going up takes segments off, or adds the two dots. -/
theorem goUp_sublist (stack : List Text) :
    (goUp stack).Sublist ((".." : Text) :: stack) := by
  have hsub := (dropEmptyTop_suffix stack).sublist
  unfold goUp
  split
  · exact List.Sublist.cons_cons _ (List.nil_sublist _)
  · next top below heq =>
    rw [heq] at hsub
    split
    · exact (List.sublist_cons_self _ _).trans (hsub.trans (List.sublist_cons_self _ _))
    · exact List.Sublist.cons_cons _ hsub

/-- A step does no more than push its segment. -/
theorem pushSegment_sublist (stack : List Text) (s : Text) :
    (pushSegment stack s).Sublist (s :: stack) := by
  unfold pushSegment
  split
  · exact List.sublist_cons_self _ _
  · split
    · next h =>
      rw [h]
      exact goUp_sublist stack
    · exact List.Sublist.refl _

/-- A directory name is pushed. -/
theorem pushSegment_plain {s : Text} (hdot : s ≠ ".") (hup : s ≠ "..")
    (stack : List Text) : pushSegment stack s = s :: stack := by
  unfold pushSegment
  rw [if_neg hdot, if_neg hup]

theorem pushSegment_dots (stack : List Text) : pushSegment stack ".." = goUp stack := by
  unfold pushSegment
  rw [if_neg (by decide), if_pos rfl]

/-- An empty segment does not count as something to go up from. -/
theorem goUp_cons_nil {stack : List Text} (h : stack ≠ []) :
    goUp ([] :: stack) = goUp stack := by
  cases stack with
  | nil => exact absurd rfl h
  | cons below stack => rfl

/-- A step up that cannot consume what is on top stays as a step up. -/
theorem pushSegment_up {top : Text} (hne : top ≠ []) (h : isPoppable top = false)
    (stack : List Text) :
    pushSegment (top :: stack) ".." = (".." : Text) :: top :: stack := by
  simp only [pushSegment_dots, goUp, dropEmptyTop_cons hne, h]
  rfl

/-- A step up takes off a segment that it can consume. -/
theorem pushSegment_pop {top : Text} (h : isPoppable top = true) (stack : List Text) :
    pushSegment (top :: stack) ".." = stack := by
  have hne : top ≠ [] := fun hnil => by
    rw [hnil] at h
    cases h
  simp only [pushSegment_dots, goUp, dropEmptyTop_cons hne, h]
  rfl

-- ========================================================== many segments

/-- Collapsing leaves segments out, and never moves one. -/
theorem foldl_pushSegment_sublist (stack rest : List Text) :
    (rest.foldl pushSegment stack).Sublist (rest.reverse ++ stack) := by
  induction rest generalizing stack with
  | nil => exact List.Sublist.refl _
  | cons s rest ih =>
      rw [List.foldl_cons, List.reverse_cons, List.append_assoc]
      exact (ih _).trans ((pushSegment_sublist stack s).append_left _)

/-- What is left after collapsing was there before. -/
theorem collapseSegments_sublist (all : List Text) :
    (collapseSegments all).Sublist all := by
  cases all with
  | nil => exact List.Sublist.slnil
  | cons first rest =>
      have h := (foldl_pushSegment_sublist [first] rest).reverse
      rw [List.reverse_append, List.reverse_reverse] at h
      exact h

/-- Segments that collapsing leaves alone after the segment `before`: none is
a dot, and a step up follows only what cannot be gone up from. -/
def Settled : (before : Text) → List Text → Prop
  | _, [] => True
  | before, s :: rest =>
    s ≠ "." ∧ (s = ".." → before ≠ [] ∧ isPoppable before = false) ∧ Settled s rest

/-- Settled segments are pushed one after the other. -/
theorem foldl_settled {before : Text} {rest : List Text} (h : Settled before rest)
    (stack : List Text) :
    rest.foldl pushSegment (before :: stack) = rest.reverse ++ before :: stack := by
  induction rest generalizing before stack with
  | nil => rfl
  | cons s rest ih =>
      obtain ⟨hdot, hup, hrest⟩ := h
      have hpush : pushSegment (before :: stack) s = s :: before :: stack := by
        by_cases hs : s = ".."
        · rw [hs]
          exact pushSegment_up (hup hs).1 (hup hs).2 stack
        · exact pushSegment_plain hdot hs _
      rw [List.foldl_cons, hpush, ih hrest, List.reverse_cons, List.append_assoc]
      rfl

/-- Where everything was pushed, the segments are settled. The first segment
of a path is not empty here, so an empty one is never at the bottom. -/
theorem settled_of_foldl {before : Text} {rest stack : List Text}
    (hbottom : before ≠ [] ∨ stack ≠ [])
    (h : rest.foldl pushSegment (before :: stack) = rest.reverse ++ before :: stack) :
    Settled before rest := by
  induction rest generalizing before stack with
  | nil => trivial
  | cons s rest ih =>
      rw [List.foldl_cons] at h
      -- the steps after this one can only lose segments, so this one pushed
      have hpush : pushSegment (before :: stack) s = s :: before :: stack := by
        have hlater := (foldl_pushSegment_sublist (pushSegment (before :: stack) s) rest).length_le
        have hthis := pushSegment_sublist (before :: stack) s
        refine hthis.eq_of_length_le ?_
        rw [h] at hlater
        simp only [List.length_append, List.length_reverse, List.length_cons] at hlater ⊢
        omega
      refine ⟨?_, ?_, ?_⟩
      · rintro rfl
        have hlen := congrArg List.length hpush
        simp [pushSegment] at hlen
      · rintro rfl
        by_cases hne : before = []
        · subst hne
          have hstack : stack ≠ [] := hbottom.resolve_left fun h => h rfl
          rw [pushSegment_dots, goUp_cons_nil hstack] at hpush
          have hlen := (goUp_sublist stack).length_le
          rw [hpush] at hlen
          simp only [List.length_cons] at hlen
          omega
        · refine ⟨hne, ?_⟩
          cases hp : isPoppable before with
          | false => rfl
          | true =>
              rw [pushSegment_pop hp] at hpush
              have hlen := congrArg List.length hpush
              simp only [List.length_cons] at hlen
              omega
      · have hfold : rest.foldl pushSegment (s :: before :: stack)
            = rest.reverse ++ s :: before :: stack := by
          rw [← hpush, h, hpush, List.reverse_cons, List.append_assoc]
          rfl
        exact ih (Or.inr (List.cons_ne_nil _ _)) hfold

/-- What follows some settled segments is pushed on them. -/
theorem Settled.foldl_append {before : Text} {front back : List Text}
    (h : Settled before (front ++ back)) (stack : List Text) :
    back.foldl pushSegment (front.reverse ++ before :: stack)
      = (front ++ back).reverse ++ before :: stack := by
  have hfront : Settled before front := by
    induction front generalizing before with
    | nil => trivial
    | cons s front ih => exact ⟨h.1, h.2.1, ih h.2.2⟩
  rw [← foldl_settled hfront, ← List.foldl_append, foldl_settled h]

-- ========================================================= empty segments

/-- The segments of a list that are not empty. -/
def proper (all : List Text) : List Text :=
  all.filter fun s => !s.isEmpty

theorem proper_cons {s : Text} (h : s ≠ []) (all : List Text) :
    proper (s :: all) = s :: proper all := by
  cases s with
  | nil => exact absurd rfl h
  | cons c s => rfl

/-- Above the root, going up skips empty segments. -/
theorem proper_goUp (front : List Text) :
    ∃ left, goUp (front ++ [("@" : Text)]) = left ++ [("@" : Text)]
      ∧ goUp (proper front ++ [("@" : Text)]) = proper left ++ [("@" : Text)] := by
  induction front with
  | nil => exact ⟨[".."], rfl, rfl⟩
  | cons s front ih =>
      by_cases hs : s = []
      · subst hs
        obtain ⟨left, hleft, hproper⟩ := ih
        refine ⟨left, ?_, hproper⟩
        rw [List.cons_append, goUp_cons_nil (by simp), hleft]
      · rw [proper_cons hs]
        simp only [goUp, List.cons_append, dropEmptyTop_cons hs]
        cases hp : isPoppable s with
        | true => exact ⟨front, rfl, rfl⟩
        | false =>
            refine ⟨(".." : Text) :: s :: front, rfl, ?_⟩
            rw [proper_cons (by decide), proper_cons hs]
            rfl

/-- Below the root, empty segments make no difference to a step, -/
theorem proper_pushSegment (front : List Text) {s : Text} (hs : s ≠ []) :
    ∃ left, pushSegment (front ++ [("@" : Text)]) s = left ++ [("@" : Text)]
      ∧ pushSegment (proper front ++ [("@" : Text)]) s = proper left ++ [("@" : Text)] := by
  by_cases hdot : s = "."
  · subst hdot
    exact ⟨front, rfl, rfl⟩
  · by_cases hup : s = ".."
    · subst hup
      rw [pushSegment_dots, pushSegment_dots]
      exact proper_goUp front
    · refine ⟨s :: front, pushSegment_plain hdot hup _, ?_⟩
      rw [pushSegment_plain hdot hup, proper_cons hs]
      rfl

/-- and so not to a path. -/
theorem proper_foldl (front rest : List Text) :
    ∃ left, rest.foldl pushSegment (front ++ [("@" : Text)]) = left ++ [("@" : Text)]
      ∧ (proper rest).foldl pushSegment (proper front ++ [("@" : Text)])
        = proper left ++ [("@" : Text)] := by
  induction rest generalizing front with
  | nil => exact ⟨front, rfl, rfl⟩
  | cons s rest ih =>
      by_cases hs : s = []
      · subst hs
        exact ih ([] :: front)
      · obtain ⟨left, hleft, hproper⟩ := proper_pushSegment front hs
        rw [proper_cons hs, List.foldl_cons, List.foldl_cons, hleft, hproper]
        exact ih left

/-- Below the root, the proper segments alone decide what collapsing leaves. -/
theorem properSegments_collapseDots (t : Text) :
    properSegments (collapseDots ('@' :: '/' :: t))
      = collapseSegments (("@" : Text) :: properSegments t) := by
  obtain ⟨left, hleft, hproper⟩ := proper_foldl [] (segments t)
  have hall : collapseSegments (segments ('@' :: '/' :: t)) = ("@" : Text) :: left.reverse := by
    have hstack : (segments t).foldl pushSegment ["@"] = left ++ [("@" : Text)] := hleft
    rw [segments_root]
    simp only [collapseSegments, hstack, List.reverse_append]
    rfl
  have hkept : collapseSegments (("@" : Text) :: properSegments t)
      = ("@" : Text) :: (proper left).reverse := by
    have hstack : (properSegments t).foldl pushSegment ["@"]
        = proper left ++ [("@" : Text)] := hproper
    simp only [collapseSegments, hstack, List.reverse_append]
    rfl
  have hsegmented : Segmented (collapseSegments (segments ('@' :: '/' :: t))) :=
    (segmented_segments _).sublist (collapseSegments_sublist _)
  have hread : segments (collapseDots ('@' :: '/' :: t)) = ("@" : Text) :: left.reverse := by
    unfold collapseDots
    rw [segments_joinSlash hsegmented (by rw [hall]; exact List.cons_ne_nil _ _), hall]
  rw [hkept]
  unfold properSegments
  rw [hread]
  show proper (("@" : Text) :: left.reverse) = _
  rw [proper_cons (by decide)]
  unfold proper
  rw [List.filter_reverse]

/-- A path below the root that collapsing leaves alone has settled segments. -/
theorem settled_of_collapseDots {t : Text}
    (h : collapseDots ('@' :: '/' :: t) = '@' :: '/' :: t) :
    Settled "@" (properSegments t) := by
  have hfix := properSegments_collapseDots t
  rw [h, properSegments_root] at hfix
  have hstack := congrArg List.reverse hfix
  simp only [collapseSegments, List.reverse_reverse, List.reverse_cons] at hstack
  exact settled_of_foldl (Or.inl (by decide)) hstack.symm

-- ============================================================== going up

/-- Going up from directories takes them back one by one. -/
theorem foldl_up {dirs : List Text} (h : ∀ s ∈ dirs, isPoppable s = true)
    (stack : List Text) :
    (List.replicate dirs.length (".." : Text)).foldl pushSegment (dirs ++ stack) = stack := by
  induction dirs with
  | nil => rfl
  | cons s dirs ih =>
      rw [List.length_cons, List.replicate_succ, List.foldl_cons, List.cons_append,
        pushSegment_pop (h s List.mem_cons_self)]
      exact ih fun t ht => h t (List.mem_cons_of_mem _ ht)

/-- Without dots there is nothing to collapse. -/
theorem foldl_plain {dirs : List Text} (h : ∀ s ∈ dirs, s ≠ "." ∧ s ≠ "..")
    (stack : List Text) : dirs.foldl pushSegment stack = dirs.reverse ++ stack := by
  induction dirs generalizing stack with
  | nil => rfl
  | cons s dirs ih =>
      obtain ⟨hdot, hup⟩ := h s List.mem_cons_self
      rw [List.foldl_cons, pushSegment_plain hdot hup,
        ih fun t ht => h t (List.mem_cons_of_mem _ ht), List.reverse_cons, List.append_assoc]
      rfl

end Symbolic

namespace Relative

open Symbolic

theorem take_commonLength (source target : List Text) {n : Nat}
    (h : n ≤ commonLength source target) : source.take n = target.take n := by
  induction n generalizing source target with
  | zero => rw [List.take_zero, List.take_zero]
  | succ n ih =>
      cases source with
      | nil => simp [commonLength] at h
      | cons s source =>
          cases target with
          | nil => simp [commonLength] at h
          | cons t target =>
              unfold commonLength at h
              split at h
              · next heq =>
                rw [List.take_succ_cons, List.take_succ_cons, heq,
                  ih source target (by omega)]
              · omega

/-- The steps from a directory to a settled target lead there. -/
theorem foldl_steps {dirs target : List Text} {top : Text}
    (hdirs : ∀ s ∈ dirs, isPoppable s = true) (htarget : Settled top target)
    (stack : List Text) :
    (steps dirs target).foldl pushSegment (dirs.reverse ++ top :: stack)
      = target.reverse ++ top :: stack := by
  unfold steps
  dsimp only
  generalize hn : min (commonLength dirs target) (dirs.length - 1) = n
  have hcommon : dirs.take n = target.take n :=
    take_commonLength dirs target (by omega)
  -- the directories that are not shared are gone up from
  have hup : (List.replicate (dirs.length - n) (".." : Text)).foldl pushSegment
      (dirs.reverse ++ top :: stack) = (target.take n).reverse ++ top :: stack := by
    have hlen : (dirs.drop n).reverse.length = dirs.length - n := by
      rw [List.length_reverse, List.length_drop]
    rw [← List.take_append_drop n dirs, List.reverse_append, List.append_assoc,
      List.take_append_drop, ← hlen, hcommon]
    refine foldl_up (fun s hs => hdirs s ?_) _
    exact List.mem_of_mem_drop (List.mem_reverse.1 hs)
  rw [List.foldl_append, hup]
  have hsplit : Settled top (target.take n ++ target.drop n) := by
    rw [List.take_append_drop]
    exact htarget
  rw [hsplit.foldl_append, List.take_append_drop]

/-- The steps of a way are segments. -/
theorem segmented_steps {dirs target : List Text} (h : Segmented target) :
    Segmented (steps dirs target) := by
  unfold steps
  dsimp only
  refine Segmented.append ?_ ?_ (h.sublist (List.drop_sublist _ _))
  · refine ⟨fun s hs => ?_, List.pairwise_replicate.2 (Or.inr rfl)⟩
    rw [(List.mem_replicate.1 hs).2]
    rfl
  · intro s hs
    rw [(List.mem_replicate.1 hs).2]
    rfl

/-- The steps from a directory, taken there, collapse to their target. -/
theorem collapseSegments_steps {dirs target : List Text}
    (hdirs : ∀ s ∈ dirs, isPoppable s = true ∧ s ≠ ".") (htarget : Settled "@" target) :
    collapseSegments (("@" : Text) :: (dirs ++ steps dirs target)) = ("@" : Text) :: target := by
  have hplain : ∀ s ∈ dirs, s ≠ "." ∧ s ≠ ".." := by
    intro s hs
    refine ⟨(hdirs s hs).2, ?_⟩
    rintro rfl
    exact absurd (hdirs _ hs).1 (by decide)
  have hfold := foldl_steps (fun s hs => (hdirs s hs).1) htarget []
  simp only [collapseSegments, List.foldl_append]
  rw [foldl_plain hplain, hfold, List.reverse_append, List.reverse_reverse]
  rfl

section Path

variable {dir : Text} {target : List Text} (hdir : Closed dir) (htarget : Segmented target)
  (hsettled : Settled "@" target)

include hdir htarget hsettled

/-- A relative path, taken from the directory it was made for, leads to its
target. -/
theorem properSegments_collapseDots_path
    (hpop : ∀ s ∈ properSegments dir, isPoppable s = true ∧ s ≠ ".")
    (hne : ∀ s ∈ target, s ≠ []) :
    properSegments
        (collapseDots ('@' :: '/' :: dir ++ '/' :: path (properSegments dir) target))
      = ("@" : Text) :: target := by
  have hsteps : properSegments (path (properSegments dir) target)
      = steps (properSegments dir) target := by
    refine properSegments_joinSlash (segmented_steps htarget) fun s hs => ?_
    rcases List.mem_append.1 hs with hs | hs
    · rw [(List.mem_replicate.1 hs).2]
      decide
    · exact hne s (List.mem_of_mem_drop hs)
  rw [List.cons_append, List.cons_append, properSegments_collapseDots,
    properSegments_append_slash hdir, hsteps, collapseSegments_steps hpop hsettled]

/-- Where no directory on the way is empty, it collapses to that very text. -/
theorem collapseDots_path (hpop : ∀ s ∈ segments dir, isPoppable s = true ∧ s ≠ ".") :
    collapseDots ('@' :: '/' :: dir ++ '/' :: path (segments dir) target)
      = Text.joinSlash (("@" : Text) :: target) := by
  -- there is a directory, so there is a step up from it
  have hsome : steps (segments dir) target ≠ [] := by
    have hlen := List.length_pos_iff.2 (segments_ne_nil dir)
    refine List.ne_nil_of_length_pos ?_
    simp only [steps, List.length_append, List.length_replicate]
    omega
  have hsegs : segments ('@' :: '/' :: dir ++ '/' :: path (segments dir) target)
      = ("@" : Text) :: (segments dir ++ steps (segments dir) target) := by
    rw [List.cons_append, List.cons_append, segments_root, segments_append_slash hdir]
    unfold path
    rw [segments_joinSlash (segmented_steps htarget) hsome]
  unfold collapseDots
  rw [hsegs, collapseSegments_steps hpop hsettled]

end Path

end Relative

end ComponentPaths
