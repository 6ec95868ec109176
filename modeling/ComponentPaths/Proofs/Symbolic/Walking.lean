/-
What collapsing keeps, and where it ends.

A path is a walk: its first segment gives a directory to start in, a name goes
down, two dots go up, one dot and an empty segment stay. A segment with a
placeholder goes wherever the code in it says, any number of steps, and every
such segment of a path has a value of its own, even if two are written alike.

Collapsing is judged by its walks. Two things carry this. What cannot be
consumed stays on the stack with all that is below it (`Firm`), so a path that
starts with the root or with a placeholder starts with it for ever. And a step
up that consumes a name undoes that very name, nothing that lies between them
being a step (`goUp_walk`). From there it is an induction over the segments, and
no value of a placeholder ever matters, because none is consumed, reordered or
doubled.

The end of it is a normal form. Each segment that is left was pushed on those
below it, and would be again (`Pushed`); this holds of every path, whatever it
starts with, so collapsing twice is collapsing once.
-/
import ComponentPaths.Proofs.Symbolic.Balanced

namespace ComponentPaths.Symbolic

-- =================================================================== walks

/-- A step from one directory to another. -/
inductive Step where
  | stay
  | up
  | down (name : Text)
  deriving DecidableEq, Repr

/-- The directory that a step leads to. A directory is the list of its names,
innermost first, and above the topmost one there is nothing. -/
def Step.take (dir : List Text) : Step → List Text
  | .stay => dir
  | .up => dir.tail
  | .down name => name :: dir

/-- The step that a segment without placeholders is. -/
def Step.ofSegment (s : Text) : Step :=
  if s = [] ∨ s = "." then .stay
  else if s = ".." then .up
  else .down s

/-- Every other segment is the name of a directory. -/
theorem Step.ofSegment_name {s : Text} (hne : s ≠ []) (hdot : s ≠ ".") (hup : s ≠ "..") :
    Step.ofSegment s = .down s := by
  unfold Step.ofSegment
  rw [if_neg (not_or.2 ⟨hne, hdot⟩), if_neg hup]

/-- Somebody on the way along a path: how many segments with a placeholder are
behind, and the directory reached. -/
structure Walker where
  passed : Nat
  dir : List Text
  deriving DecidableEq, Repr

section Walks

variable (value : Nat → Text → List Step)

/-- One segment on. `value n s` is where the code in `s` leads, `s` being segment
number `n` among those with a placeholder. -/
def Walker.step (w : Walker) (s : Text) : Walker :=
  if hasPlaceholder s then ⟨w.passed + 1, (value w.passed s).foldl Step.take w.dir⟩
  else ⟨w.passed, (Step.ofSegment s).take w.dir⟩

/-- Where a path leads whose first segment is the directory `base`. -/
def leadsTo (base : List Text) (path : Text) : List Text :=
  ((segments path).tail.foldl (Walker.step value) ⟨0, base⟩).dir

theorem Walker.step_nil (w : Walker) : w.step value [] = w := rfl

/-- Going up undoes a name. -/
theorem Walker.step_up {s : Text} (hpop : isPoppable s = true) (hdot : s ≠ ".")
    (w : Walker) : (w.step value s).step value ".." = w := by
  have hs : ((s ≠ ".." ∧ s ≠ "@") ∧ '{' ∉ s) ∧ s ≠ [] := by
    simpa [isPoppable] using hpop
  have hplain : hasPlaceholder s = false := by
    rw [← Bool.not_eq_true, hasPlaceholder_iff]
    exact hs.1.2
  have hstep : w.step value s = ⟨w.passed, s :: w.dir⟩ := by
    unfold Walker.step
    rw [hplain, Step.ofSegment_name hs.2 hdot hs.1.1.1]
    rfl
  rw [hstep]
  rfl

end Walks

-- ============================================================= what stays

/-- A segment that going up cannot consume, and that is not skipped. -/
def Firm (s : Text) : Prop :=
  s ≠ [] ∧ isPoppable s = false

/-- What a step up does not consume, but for empty segments. -/
theorem firm_iff {s : Text} : Firm s ↔ s = ".." ∨ s = "@" ∨ '{' ∈ s := by
  unfold Firm
  constructor
  · rintro ⟨hne, hpop⟩
    have hcases : s ≠ ".." → s ≠ "@" → '{' ∉ s → s = [] := by
      simpa [isPoppable] using hpop
    by_cases hup : s = ".."
    · exact Or.inl hup
    · by_cases hroot : s = "@"
      · exact Or.inr (Or.inl hroot)
      · refine Or.inr (Or.inr (Decidable.byContradiction fun hbrace => ?_))
        exact hne (hcases hup hroot hbrace)
  · rintro (rfl | rfl | hbrace)
    · decide
    · decide
    · exact ⟨List.ne_nil_of_mem hbrace, by simp [isPoppable, hbrace]⟩

section Firm

variable {first : Text} (hfirst : Firm first) (lower : List Text)

include hfirst

/-- Going up above a firm segment leaves it where it is, and is one step up for
whoever walks there. -/
theorem goUp_walk {left : List Text} (hdots : ∀ s ∈ left, s ≠ ".") :
    ∃ left', goUp (left ++ first :: lower) = left' ++ first :: lower
      ∧ (∀ s ∈ left', s ≠ ".")
      ∧ ∀ value w, left'.reverse.foldl (Walker.step value) w
        = (left.reverse.foldl (Walker.step value) w).step value ".." := by
  induction left with
  | nil =>
      refine ⟨[".."], ?_, by decide, fun value w => rfl⟩
      rw [List.nil_append, ← pushSegment_dots, pushSegment_up hfirst.1 hfirst.2]
      rfl
  | cons s left ih =>
      have hleft : ∀ u ∈ left, u ≠ "." := fun u hu => hdots u (List.mem_cons_of_mem _ hu)
      by_cases hs : s = []
      · -- an empty segment is not a step, so it is as if it were not there
        subst hs
        obtain ⟨left', heq, hdots', hwalk⟩ := ih hleft
        refine ⟨left', ?_, hdots', fun value w => ?_⟩
        · rw [List.cons_append, goUp_cons_nil (by simp), heq]
        · rw [hwalk, List.reverse_cons, List.foldl_append, List.foldl_cons, List.foldl_nil,
            Walker.step_nil]
      · cases hpop : isPoppable s with
        | true =>
            refine ⟨left, ?_, hleft, fun value w => ?_⟩
            · rw [List.cons_append, ← pushSegment_dots, pushSegment_pop hpop]
            · rw [List.reverse_cons, List.foldl_append, List.foldl_cons, List.foldl_nil,
                Walker.step_up value hpop (hdots s List.mem_cons_self)]
        | false =>
            refine ⟨(".." : Text) :: s :: left, ?_, ?_, fun value w => ?_⟩
            · rw [List.cons_append, ← pushSegment_dots, pushSegment_up hs hpop]
              rfl
            · intro u hu
              rcases List.mem_cons.1 hu with rfl | hu
              · decide
              · exact hdots u hu
            · rw [List.reverse_cons, List.foldl_append]
              rfl

/-- One segment more above a firm one is one step more. -/
theorem pushSegment_walk {left : List Text} (hdots : ∀ s ∈ left, s ≠ ".") (s : Text) :
    ∃ left', pushSegment (left ++ first :: lower) s = left' ++ first :: lower
      ∧ (∀ s ∈ left', s ≠ ".")
      ∧ ∀ value w, left'.reverse.foldl (Walker.step value) w
        = (left.reverse.foldl (Walker.step value) w).step value s := by
  by_cases hdot : s = "."
  · subst hdot
    exact ⟨left, rfl, hdots, fun value w => rfl⟩
  · by_cases hup : s = ".."
    · subst hup
      rw [pushSegment_dots]
      exact goUp_walk hfirst lower hdots
    · refine ⟨s :: left, pushSegment_plain hdot hup _, ?_, fun value w => ?_⟩
      · intro u hu
        rcases List.mem_cons.1 hu with rfl | hu
        · exact hdot
        · exact hdots u hu
      · rw [List.reverse_cons, List.foldl_append]
        rfl

/-- Collapsing above a firm segment leads where the segments lead. -/
theorem foldl_walk {left : List Text} (hdots : ∀ s ∈ left, s ≠ ".") (rest : List Text) :
    ∃ left', rest.foldl pushSegment (left ++ first :: lower) = left' ++ first :: lower
      ∧ ∀ value w, left'.reverse.foldl (Walker.step value) w
        = rest.foldl (Walker.step value) (left.reverse.foldl (Walker.step value) w) := by
  induction rest generalizing left with
  | nil => exact ⟨left, rfl, fun value w => rfl⟩
  | cons s rest ih =>
      obtain ⟨next, heq, hnext, hstep⟩ := pushSegment_walk hfirst lower hdots s
      obtain ⟨left', heq', hwalk⟩ := ih hnext
      refine ⟨left', ?_, fun value w => ?_⟩
      · rw [List.foldl_cons, heq, heq']
      · rw [hwalk, hstep, List.foldl_cons]

/-- On top of a firm segment, collapsing leaves segments that lead where those read
lead. -/
theorem exists_foldl_firm (rest : List Text) :
    ∃ left, rest.foldl pushSegment (first :: lower) = left ++ first :: lower
      ∧ ∀ value w, left.reverse.foldl (Walker.step value) w
        = rest.foldl (Walker.step value) w := by
  have hnone : ∀ s ∈ ([] : List Text), s ≠ "." := fun s hs => (by cases hs)
  exact foldl_walk hfirst lower hnone rest

end Firm

-- ============================================================= normal form

/-- A stack of segments, last first, each of which was pushed on those below it.
Nothing is said of the lowest, which is kept as it is. -/
def Pushed : List Text → Prop
  | [] => True
  | [_] => True
  | s :: below :: rest =>
    pushSegment (below :: rest) s = s :: below :: rest ∧ Pushed (below :: rest)

theorem Pushed.tail {s : Text} {stack : List Text} (h : Pushed (s :: stack)) :
    Pushed stack := by
  cases stack with
  | nil => trivial
  | cons below rest => exact h.2

/-- The first segments of a collapsed path are collapsed. -/
theorem Pushed.suffix {some stack : List Text} (h : Pushed stack) (hs : some <:+ stack) :
    Pushed some := by
  obtain ⟨above, rfl⟩ := hs
  induction above with
  | nil => exact h
  | cons s above ih => exact ih h.tail

theorem Pushed.cons {s : Text} {stack : List Text} (h : Pushed stack)
    (hs : pushSegment stack s = s :: stack) : Pushed (s :: stack) := by
  cases stack with
  | nil => trivial
  | cons below rest => exact ⟨hs, h⟩

theorem dropEmptyTop_idem (stack : List Text) :
    dropEmptyTop (dropEmptyTop stack) = dropEmptyTop stack := by
  fun_induction dropEmptyTop stack with
  | case1 below rest ih => exact ih
  | case2 stack hstack =>
      unfold dropEmptyTop
      split
      · next below rest => exact absurd rfl (hstack below rest)
      · rfl

/-- Going up keeps what was read collapsed, -/
theorem Pushed.goUp {stack : List Text} (h : Pushed stack) : Pushed (goUp stack) := by
  have hsuffix := h.suffix (dropEmptyTop_suffix stack)
  have hidem := dropEmptyTop_idem stack
  unfold Symbolic.goUp
  split
  · trivial
  · next top below heq =>
    rw [heq] at hsuffix hidem
    split
    · exact hsuffix.tail
    · next hpop =>
      -- the step up stays, and there is no reason for it to go the next time
      refine hsuffix.cons ?_
      rw [pushSegment_dots]
      unfold Symbolic.goUp
      rw [hidem]
      exact if_neg hpop

/-- as any other segment does. -/
theorem Pushed.pushSegment {stack : List Text} (h : Pushed stack) (s : Text) :
    Pushed (pushSegment stack s) := by
  by_cases hdot : s = "."
  · subst hdot
    exact h
  · by_cases hup : s = ".."
    · subst hup
      rw [pushSegment_dots]
      exact h.goUp
    · rw [pushSegment_plain hdot hup]
      exact h.cons (pushSegment_plain hdot hup stack)

theorem Pushed.foldl {stack : List Text} (h : Pushed stack) (rest : List Text) :
    Pushed (rest.foldl Symbolic.pushSegment stack) := by
  induction rest generalizing stack with
  | nil => exact h
  | cons s rest ih => exact ih (h.pushSegment s)

/-- Segments that were pushed are pushed again. -/
theorem Pushed.foldl_eq {stack : List Text} {lowest : Text} (h : Pushed (stack ++ [lowest])) :
    stack.reverse.foldl Symbolic.pushSegment [lowest] = stack ++ [lowest] := by
  induction stack with
  | nil => rfl
  | cons s stack ih =>
      rw [List.cons_append] at h ⊢
      rw [List.reverse_cons, List.foldl_append, ih h.tail, List.foldl_cons, List.foldl_nil]
      cases hbelow : stack ++ [lowest] with
      | nil => simp at hbelow
      | cons below rest =>
          rw [hbelow] at h
          exact h.1

/-- Collapsing twice is collapsing once. -/
theorem collapseSegments_idem (all : List Text) :
    collapseSegments (collapseSegments all) = collapseSegments all := by
  cases all with
  | nil => rfl
  | cons first rest =>
      have hpushed : Pushed (rest.foldl pushSegment [first]) :=
        Pushed.foldl (show Pushed [first] from trivial) rest
      cases hleft : collapseSegments (first :: rest) with
      | nil => rfl
      | cons lowest others =>
          have hstack : rest.foldl pushSegment [first] = others.reverse ++ [lowest] := by
            rw [← List.reverse_cons, ← hleft]
            exact (List.reverse_reverse _).symm
          rw [hstack] at hpushed
          have hagain := hpushed.foldl_eq
          rw [List.reverse_reverse] at hagain
          show (others.foldl pushSegment [lowest]).reverse = lowest :: others
          rw [hagain, List.reverse_append, List.reverse_reverse]
          rfl

/-- The segments of a collapsed path are those that are left. -/
theorem segments_collapseDots {path : Text} (h : collapseSegments (segments path) ≠ []) :
    segments (collapseDots path) = collapseSegments (segments path) := by
  refine segments_joinSlash ?_ h
  exact (segmented_segments path).sublist (collapseSegments_sublist _)

/-- A collapsed path has nothing more to collapse. -/
theorem collapseDots_idem (path : Text) :
    collapseDots (collapseDots path) = collapseDots path := by
  by_cases hnone : collapseSegments (segments path) = []
  · unfold collapseDots
    rw [hnone]
    rfl
  · rw [collapseDots, segments_collapseDots hnone, collapseSegments_idem]
    rfl

/-- In a settled path, every step up follows what is firm. -/
theorem Settled.firm_before {first : Text} {rest front back : List Text}
    (h : Settled first rest) (heq : rest = front ++ (".." : Text) :: back) :
    Firm (front.getLastD first) := by
  induction front generalizing first rest with
  | nil =>
      subst heq
      exact h.2.1 rfl
  | cons s front ih =>
      subst heq
      rw [List.getLastD_cons]
      exact ih h.2.2 rfl

theorem Settled.ne_dot {first s : Text} {rest : List Text} (h : Settled first rest)
    (hs : s ∈ rest) : s ≠ "." := by
  induction rest generalizing first with
  | nil => cases hs
  | cons t rest ih =>
      rcases List.mem_cons.1 hs with rfl | hs
      · exact h.1
      · exact ih h.2.2 hs

-- ================================================================ the laws

/-- A path that starts with what is firm keeps that and settles, and leads where
it led. -/
theorem exists_collapseDots {path first : Text} {rest : List Text}
    (hpath : segments path = first :: rest) (hfirst : Firm first) :
    ∃ left, segments (collapseDots path) = first :: left ∧ Settled first left
      ∧ ∀ value w, left.foldl (Walker.step value) w = rest.foldl (Walker.step value) w := by
  obtain ⟨left, hstack, hwalk⟩ := exists_foldl_firm hfirst [] rest
  have hleft : collapseSegments (segments path) = first :: left.reverse := by
    rw [hpath]
    unfold collapseSegments
    dsimp only
    rw [hstack, List.reverse_append]
    rfl
  refine ⟨left.reverse, ?_, ?_, hwalk⟩
  · rw [segments_collapseDots (by rw [hleft]; exact List.cons_ne_nil _ _), hleft]
  · have hidem := congrArg List.reverse (collapseSegments_idem (segments path))
    rw [hleft] at hidem
    have hagain : left.reverse.foldl pushSegment [first] = left.reverse.reverse ++ [first] := by
      simpa [collapseSegments] using hidem
    exact settled_of_foldl (Or.inl hfirst.1) hagain

/-- Collapsing is idempotent on every text. On a path that starts with the root
or with a placeholder, it keeps where the path leads, whatever the directory at
its start and the values of its placeholders, and leaves a normal form: no dot
after the first segment, and two dots only after the root, after two dots, or
after a placeholder. -/
theorem collapseDots_meaning (path : Text) :
    collapseDots (collapseDots path) = collapseDots path
    ∧ ∀ first, (segments path).head? = some first →
      first = "@" ∨ hasPlaceholder first = true →
      (∀ value base, leadsTo value base (collapseDots path) = leadsTo value base path)
      ∧ (∀ s ∈ (segments (collapseDots path)).tail, s ≠ ".")
      ∧ ∀ front back, segments (collapseDots path) = front ++ (".." : Text) :: back →
        ∃ before, front.getLast? = some before
          ∧ (before = "@" ∨ before = ".." ∨ hasPlaceholder before = true) := by
  refine ⟨collapseDots_idem path, fun first hhead hstart => ?_⟩
  obtain ⟨rest, hpath⟩ : ∃ rest, segments path = first :: rest :=
    List.head?_eq_some_iff.1 hhead
  have hbrace := fun s : Text => (hasPlaceholder_iff (t := s))
  have hfirst : Firm first := by
    refine firm_iff.2 (Or.inr ?_)
    rcases hstart with h | h
    · exact Or.inl h
    · exact Or.inr ((hbrace first).1 h)
  obtain ⟨left, hleft, hsettled, hwalk⟩ := exists_collapseDots hpath hfirst
  refine ⟨fun value base => ?_, fun s hs => ?_, fun front back heq => ?_⟩
  · unfold leadsTo
    rw [hleft, hpath, List.tail_cons, List.tail_cons, hwalk]
  · rw [hleft] at hs
    exact hsettled.ne_dot hs
  · rw [hleft] at heq
    cases front with
    | nil =>
        -- two dots are neither the root nor a placeholder
        rw [(List.cons.inj heq).1] at hstart
        exact absurd hstart (by decide)
    | cons s front =>
        obtain ⟨rfl, hrest⟩ := List.cons.inj heq
        refine ⟨front.getLastD first, ?_, ?_⟩
        · rw [List.getLast?_cons, List.getLastD_eq_getLast?]
        · rcases firm_iff.1 (hsettled.firm_before hrest) with h | h | h
          · exact Or.inr (Or.inl h)
          · exact Or.inl h
          · exact Or.inr (Or.inr ((hbrace _).2 h))

/-- A path with two unknown directories that are written alike. -/
def twoUnknown : Text :=
  "@/mod//../\x7b$a\x7d/../\x7b$a\x7d/./quiz/../lib.php"

/-- The first of them leads up and down again, the second down. The names around
them are gone, and what is left leads where the path led. -/
theorem collapseDots_meaning_twoUnknown :
    collapseDots twoUnknown = "@/\x7b$a\x7d/../\x7b$a\x7d/lib.php"
    ∧ leadsTo (fun n _ => if n = 0 then [.up, .down "a", .down "b"] else [.down "c"])
        [("moodle" : Text), ("www" : Text)] (collapseDots twoUnknown)
      = [("lib.php" : Text), ("c" : Text), ("a" : Text), ("www" : Text)]
    ∧ ∀ s ∈ (segments (collapseDots twoUnknown)).tail, s ≠ "." := by
  obtain ⟨hwalk, hdots, -⟩ :=
    (collapseDots_meaning twoUnknown).2 "@" (by decide) (Or.inl rfl)
  refine ⟨by decide, ?_, hdots⟩
  rw [hwalk]
  decide

end ComponentPaths.Symbolic
