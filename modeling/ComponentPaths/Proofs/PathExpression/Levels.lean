/-
Going up by `dirname`.

One level up is one segment less, and the directory above the root is
written out. So a path loses its segments from the end, one level each
(`levelsUp?_take`), and what is left of a collapsed path is collapsed
(`levelsUp?_collapsed`): a call that takes the result of another goes on
where the other stopped. As long as both take all the levels they are asked
for, two calls are one with the sum of their counts.

A call does not take more levels than its path has segments. Below the root
nobody can tell. Above it counts: the root has one segment, the directory
above it has two, and one level up from there is the root again
(`levels_compose_iff`).

What kind of segment is dropped makes no difference. A segment with a
placeholder is dropped like any other, although its value may have any number
of segments, and is in the result only if the call is left to the code
(`dirname_discards_last`).
-/
import ComponentPaths.PathExpression.Find
import ComponentPaths.Proofs.PathExpression.Rules
import ComponentPaths.Proofs.Symbolic.Above

namespace ComponentPaths.Contribution

open Symbolic

-- ================================================================== levels

/-- Levels can be gone up in two parts. -/
theorem levelsUp?_add (m n : Nat) (path : Text) :
    levelsUp? (m + n) path = (levelsUp? m path).bind (levelsUp? n) := by
  induction m generalizing path with
  | zero =>
      rw [Nat.zero_add]
      rfl
  | succ m ih =>
      rw [Nat.succ_add]
      simp only [levelsUp?]
      cases levelUp? path with
      | none => rfl
      | some up => exact ih up

/-- One level up from a collapsed path is collapsed. -/
theorem levelUp?_collapsed {path up : Text} (h : collapseDots path = path)
    (hup : levelUp? path = some up) : collapseDots up = up := by
  unfold levelUp? at hup
  split at hup
  · cases hup
    decide
  · rcases prefix_of_dropLastSegment? hup with rfl | ⟨front, hne, hfront, rfl⟩
    · decide
    · exact collapseDots_front h hne hfront

/-- What is left of a collapsed path is collapsed. -/
theorem levelsUp?_collapsed {count : Nat} {path left : Text} (h : collapseDots path = path)
    (hleft : levelsUp? count path = some left) : collapseDots left = left := by
  induction count generalizing path with
  | zero =>
      cases hleft
      exact h
  | succ count ih =>
      simp only [levelsUp?] at hleft
      obtain ⟨up, hup, hleft⟩ := Option.bind_eq_some_iff.1 hleft
      exact ih (levelUp?_collapsed h hup) hleft

theorem segments_length_pos (path : Text) : 1 ≤ (segments path).length :=
  List.length_pos_iff.2 (segments_ne_nil path)

/-- An anchored path is collapsed, and then goes up as far as it has segments. -/
theorem dropLevels?_anchored {path : Text} (h : isAnchored path = true) (count : Nat) :
    dropLevels? path count
      = levelsUp? (min count (segments (collapseDots path)).length) (collapseDots path) := by
  unfold dropLevels?
  dsimp only
  rw [if_pos h, Nat.max_eq_left (segments_length_pos _)]

/-- A collapsed path goes up as it is. -/
theorem dropLevels?_collapsed {path : Text} (h : collapseDots path = path) (count : Nat) :
    dropLevels? path count = levelsUp? (min count (segments path).length) path := by
  unfold dropLevels?
  dsimp only
  rw [h, ite_self, Nat.max_eq_left (segments_length_pos _)]

/-- Where no count is cut, levels add up. -/
theorem dropLevels?_add {path left : Text} (h : isAnchored path = true) {m n : Nat}
    (hleft : levelsUp? m (collapseDots path) = some left)
    (hall : m + n ≤ (segments (collapseDots path)).length) (hmore : n ≤ (segments left).length) :
    dropLevels? path m = some left
    ∧ dropLevels? left n = levelsUp? n left
    ∧ dropLevels? path (m + n) = levelsUp? n left := by
  have hcollapsed : collapseDots left = left :=
    levelsUp?_collapsed (collapseDots_idem path) hleft
  refine ⟨?_, ?_, ?_⟩
  · rw [dropLevels?_anchored h, Nat.min_eq_left (by omega), hleft]
  · rw [dropLevels?_collapsed hcollapsed, Nat.min_eq_left hmore]
  · rw [dropLevels?_anchored h, Nat.min_eq_left hall, levelsUp?_add, hleft]
    rfl

-- ------------------------------------------------------------ proper names

/-- One level up from a segment below others is the path of those others. -/
theorem levelUp?_of_last {path last : Text} {front : List Text}
    (h : segments path = front ++ [last]) (hlast : last ≠ []) (hroot : path ≠ "@") :
    levelUp? path = above? front := by
  unfold levelUp?
  rw [if_neg hroot, dropLastSegment?_of_last h hlast]

/-- Where no segment is empty, each level takes off the last one. -/
theorem levelsUp?_take {first : Text} {names : List Text} (h : Segmented (first :: names))
    (hne : ∀ s ∈ first :: names, s ≠ []) {count : Nat} (hcount : count ≤ names.length) :
    levelsUp? count (Text.joinSlash (first :: names))
      = some (Text.joinSlash (first :: names.take (names.length - count))) := by
  induction count generalizing names with
  | zero =>
      rw [Nat.sub_zero, List.take_length]
      rfl
  | succ count ih =>
      obtain ⟨front, last, rfl⟩ : ∃ front last, names = front ++ [last] := by
        rcases List.eq_nil_or_concat names with rfl | ⟨front, last, hnames⟩
        · cases hcount
        · exact ⟨front, last, hnames.trans List.concat_eq_append⟩
      have hsegs := segments_joinSlash h (List.cons_ne_nil _ _)
      rw [← List.cons_append] at h hne hsegs ⊢
      have hroot : Text.joinSlash (first :: front ++ [last]) ≠ "@" := by
        intro heq
        rw [heq] at hsegs
        have hone : (segments "@").length = 1 := rfl
        rw [hsegs, List.length_append, List.length_cons, List.length_singleton] at hone
        omega
      have hup : levelUp? (Text.joinSlash (first :: front ++ [last]))
          = some (Text.joinSlash (first :: front)) := by
        rw [levelUp?_of_last hsegs (hne last (by simp)) hroot,
          above?_of_head (hne first (by simp))]
      rw [List.length_append, List.length_singleton] at hcount ⊢
      simp only [levelsUp?]
      rw [hup, Option.bind_some, ih (h.sublist (List.sublist_append_left _ _))
        (fun s hs => hne s (List.mem_append_left _ hs)) (by omega)]
      rw [List.take_append_of_le_length (by omega), Nat.add_sub_add_right]

/-- One level more than there are names is one level up from the first segment. -/
theorem levelsUp?_all {first : Text} {names : List Text} (h : Segmented (first :: names))
    (hne : ∀ s ∈ first :: names, s ≠ []) :
    levelsUp? (names.length + 1) (Text.joinSlash (first :: names)) = levelUp? first := by
  rw [levelsUp?_add, levelsUp?_take h hne (Nat.le_refl _), Nat.sub_self, List.take_zero,
    Text.joinSlash_singleton, Option.bind_some]
  exact Option.bind_fun_some _

/-- The path some levels above names below the root. -/
def aboveNames (names : List Text) (count : Nat) : Text :=
  if count ≤ names.length then Text.joinSlash ("@" :: names.take (names.length - count))
  else "@/.."

/-- Levels above a path of names below the root. -/
theorem dropLevels?_root {path : Text} {names : List Text} (h : isAnchored path = true)
    (hsegs : segments (collapseDots path) = ("@" : Text) :: names)
    (hne : ∀ s ∈ names, s ≠ []) (count : Nat) :
    dropLevels? path count = some (aboveNames names count) := by
  have hseg : Segmented (("@" : Text) :: names) := hsegs ▸ segmented_segments _
  have hpath : collapseDots path = Text.joinSlash ("@" :: names) := by
    rw [← hsegs, joinSlash_segments]
  have hall : ∀ s ∈ ("@" : Text) :: names, s ≠ [] :=
    List.forall_mem_cons.2 ⟨by decide, hne⟩
  rw [dropLevels?_anchored h, hsegs, hpath, List.length_cons]
  unfold aboveNames
  by_cases hcount : count ≤ names.length
  · rw [if_pos hcount, Nat.min_eq_left (by omega), levelsUp?_take hseg hall hcount]
  · -- all names and then one more
    rw [if_neg hcount, Nat.min_eq_right (by omega), levelsUp?_all hseg hall]
    rfl

/-- What is left below the root is a path of names below the root. -/
theorem segments_aboveNames {path : Text} {names : List Text}
    (hsegs : segments (collapseDots path) = ("@" : Text) :: names) {count : Nat}
    (hcount : count ≤ names.length) :
    isAnchored (aboveNames names count) = true
    ∧ segments (collapseDots (aboveNames names count))
      = ("@" : Text) :: names.take (names.length - count) := by
  have hprefix : ("@" : Text) :: names.take (names.length - count)
      <+: segments (collapseDots path) := by
    rw [hsegs]
    exact List.cons_prefix_cons.2 ⟨rfl, List.take_prefix _ _⟩
  unfold aboveNames
  rw [if_pos hcount]
  refine ⟨?_, ?_⟩
  · cases names.take (names.length - count) with
    | nil => rfl
    | cons s rest =>
        rw [Text.joinSlash_cons _ (List.cons_ne_nil _ _)]
        rfl
  · rw [collapseDots_front (collapseDots_idem path) (List.cons_ne_nil _ _) hprefix]
    exact segments_joinSlash ((segmented_segments _).sublist hprefix.sublist)
      (List.cons_ne_nil _ _)

/-- Levels above what is left are levels above the whole. -/
theorem aboveNames_take {names : List Text} {m : Nat} (hm : m ≤ names.length) (n : Nat) :
    aboveNames (names.take (names.length - m)) n = aboveNames names (m + n) := by
  have hlength : (names.take (names.length - m)).length = names.length - m := by
    rw [List.length_take]
    omega
  unfold aboveNames
  rw [hlength]
  by_cases hn : m + n ≤ names.length
  · rw [if_pos (by omega), if_pos hn, List.take_take, Nat.min_eq_left (by omega), Nat.sub_sub]
  · rw [if_neg (by omega), if_neg hn]

/-- Going up again from what is left of names below the root gives what the sum of
the counts gives, unless it is one level from above the root. -/
theorem exists_dropLevels?_aboveNames {path : Text} {names : List Text}
    (hsegs : segments (collapseDots path) = ("@" : Text) :: names)
    (hne : ∀ s ∈ names, s ≠ []) (m : Nat) {n : Nat} (hn : 1 ≤ n) :
    ∃ left, dropLevels? (aboveNames names m) n = some left
      ∧ (left = aboveNames names (m + n) ↔ m ≤ names.length ∨ 2 ≤ n) := by
  by_cases hm : m ≤ names.length
  · obtain ⟨hanchored, hleft⟩ := segments_aboveNames hsegs hm
    have hnames : ∀ s ∈ names.take (names.length - m), s ≠ [] :=
      fun s hs => hne s (List.mem_of_mem_take hs)
    refine ⟨_, dropLevels?_root hanchored hleft hnames n, ?_⟩
    exact iff_of_true (aboveNames_take hm n) (Or.inl hm)
  · -- above the root there is one name, the two dots
    have hfrom : aboveNames names m = "@/.." := if_neg hm
    have hsum : aboveNames names (m + n) = "@/.." := if_neg (by omega)
    rw [hfrom, hsum]
    refine ⟨aboveNames [".."] n, dropLevels?_root rfl rfl (by decide) n, ?_⟩
    by_cases htwo : 2 ≤ n
    · have hmore : ¬n ≤ [(".." : Text)].length := Nat.not_le.2 htwo
      exact iff_of_true (if_neg hmore) (Or.inr htwo)
    · obtain rfl : n = 1 := by omega
      exact iff_of_false (by decide) (by omega)

-- ================================================================== calls

/-- A call of `dirname`: its path, and how many levels it drops. -/
structure IsDirname (a : Arena) (call path count : Nat) : Prop where
  kind : (a.kind call).isDirname = true
  first : (a.childrenByRole call "args").head? = some path
  levels : levels a (a.childrenByRole call "args") = count

instance (a : Arena) (call path count : Nat) : Decidable (IsDirname a call path count) :=
  decidable_of_iff
    ((a.kind call).isDirname = true ∧ (a.childrenByRole call "args").head? = some path
      ∧ levels a (a.childrenByRole call "args") = count)
    ⟨fun h => ⟨h.1, h.2.1, h.2.2⟩, fun h => ⟨h.kind, h.first, h.levels⟩⟩

/-- An argument of a call with its value, which is all that is in it. A value that
is not wrapped is its own argument. -/
structure IsArgument (a : Arena) (arg inner : Nat) : Prop where
  operand : operand a arg = inner
  alone : a.kind arg = .arg → a.children arg = [inner]

instance (a : Arena) (arg inner : Nat) : Decidable (IsArgument a arg inner) :=
  decidable_of_iff (operand a arg = inner ∧ (a.kind arg = .arg → a.children arg = [inner]))
    ⟨fun h => ⟨h.1, h.2⟩, fun h => ⟨h.operand, h.alone⟩⟩

/-- The contribution of a `dirname` call that is left to the code. -/
def ownCode (a : Arena) (file : Text) (call : Nat) : Text :=
  placeholder ("dirname(" ++ renderArgs a (total a file) call ++ ")")

variable {a : Arena} {file : Text} {call path count arg inner : Nat}

/-- A call contributes what is left of its path, or its own code. -/
theorem IsDirname.total_eq (h : IsDirname a call path count) (hl : a.Linked) (file : Text) :
    total a file call
      = (dropLevels? (total a file path) count).getD (ownCode a file call) := by
  obtain ⟨more, hargs⟩ := List.head?_eq_some_iff.1 h.first
  have hlevels := h.levels
  rw [Contribution.total_eq hl, ofNode_of_isDirname h.kind]
  unfold dirname ownCode
  dsimp only
  rw [hlevels, hargs]

/-- An argument contributes what its value does. -/
theorem IsArgument.total_eq (h : IsArgument a arg inner) (hl : a.Linked) (file : Text) :
    total a file arg = total a file inner := by
  by_cases hkind : a.kind arg = .arg
  · rw [Contribution.total_eq hl]
    unfold ofNode ofChildren
    simp only [hkind, h.alone hkind, List.flatMap_cons, List.flatMap_nil, List.append_nil]
  · have hoperand : Contribution.operand a arg = arg := by
      unfold Contribution.operand
      split
      · next harg => exact absurd harg hkind
      · rfl
    rw [← h.operand, hoperand]

-- ========================================================== level counts

/-- Two calls of `dirname`, one inside of the other, against one call with the sum
of their counts. As long as no count is cut, all of them go up level by level
and end at one path. On a path of names below the root, the results are the
same unless the inner call is above the root and the outer one drops one level:
that leads back to the root, and a count never does. -/
theorem levels_compose_iff {b : Arena} {file' : Text} {m n outer direct path' : Nat}
    (ha : a.Built) (hb : b.Built) (hinner : IsDirname a inner path m)
    (harg : IsArgument a arg inner) (houter : IsDirname a outer arg n)
    (hdirect : IsDirname b direct path' (m + n))
    (hsame : total b file' path' = total a file path)
    (hanchored : isAnchored (total a file path) = true) (hn : 1 ≤ n) :
    (∀ left whole, levelsUp? m (collapseDots (total a file path)) = some left →
      levelsUp? n left = some whole →
      m + n ≤ (segments (collapseDots (total a file path))).length →
      n ≤ (segments left).length →
      total a file outer = whole ∧ total b file' direct = whole)
    ∧ ∀ names, segments (collapseDots (total a file path)) = ("@" : Text) :: names →
      (∀ s ∈ names, s ≠ []) →
      (total a file outer = total b file' direct ↔ m ≤ names.length ∨ 2 ≤ n) := by
  have hnested := houter.total_eq ha.linked file
  have hwhole := hdirect.total_eq hb.linked file'
  rw [harg.total_eq ha.linked, hinner.total_eq ha.linked] at hnested
  rw [hsame] at hwhole
  refine ⟨fun left whole hleft htop hall hmore => ?_, fun names hsegs hne => ?_⟩
  · obtain ⟨hlower, hupper, hboth⟩ := dropLevels?_add hanchored hleft hall hmore
    rw [hnested, hwhole, hlower, hboth, Option.getD_some, hupper, htop]
    exact ⟨rfl, rfl⟩
  · have hroot := dropLevels?_root hanchored hsegs hne
    obtain ⟨left, hleft, hiff⟩ := exists_dropLevels?_aboveNames hsegs hne m hn
    rw [hnested, hwhole, hroot, hroot, Option.getD_some, hleft]
    exact hiff

/-- Two levels in two calls, and in one. -/
def twoClimbs : Arena :=
  (Arena.empty (Bytes.ofText
      "require dirname(dirname(__DIR__, 1), 1).'/lib.php'; require dirname(__DIR__, 2).'/lib.php';"))
    |>.push none "" .expressionStatement ⟨0, 51⟩ 1 1
    |>.push (some 0) "expr" (.inclusion .require) ⟨0, 50⟩ 1 1
    |>.push (some 1) "expr" .concat ⟨8, 50⟩ 1 1
    |>.push (some 2) "left" (.funcCall (some "dirname")) ⟨8, 39⟩ 1 1
    |>.push (some 3) "args" .arg ⟨16, 35⟩ 1 1
    |>.push (some 4) "value" (.funcCall (some "dirname")) ⟨16, 35⟩ 1 1
    |>.push (some 5) "args" .arg ⟨24, 31⟩ 1 1
    |>.push (some 6) "value" .magicDir ⟨24, 31⟩ 1 1
    |>.push (some 5) "args" .arg ⟨33, 34⟩ 1 1
    |>.push (some 8) "value" (.numberLiteral "1") ⟨33, 34⟩ 1 1
    |>.push (some 3) "args" .arg ⟨37, 38⟩ 1 1
    |>.push (some 10) "value" (.numberLiteral "1") ⟨37, 38⟩ 1 1
    |>.push (some 2) "right" (.stringLiteral "/lib.php") ⟨40, 50⟩ 1 1
    |>.push none "" .expressionStatement ⟨52, 91⟩ 1 1
    |>.push (some 13) "expr" (.inclusion .require) ⟨52, 90⟩ 1 1
    |>.push (some 14) "expr" .concat ⟨60, 90⟩ 1 1
    |>.push (some 15) "left" (.funcCall (some "dirname")) ⟨60, 79⟩ 1 1
    |>.push (some 16) "args" .arg ⟨68, 75⟩ 1 1
    |>.push (some 17) "value" .magicDir ⟨68, 75⟩ 1 1
    |>.push (some 16) "args" .arg ⟨77, 78⟩ 1 1
    |>.push (some 19) "value" (.numberLiteral "2") ⟨77, 78⟩ 1 1
    |>.push (some 15) "right" (.stringLiteral "/lib.php") ⟨80, 90⟩ 1 1

theorem built_twoClimbs : twoClimbs.Built :=
  (Arena.Built.empty _).top
    |>.under (by decide) |>.under (by decide) |>.under (by decide) |>.under (by decide)
    |>.under (by decide) |>.under (by decide) |>.under (by decide) |>.under (by decide)
    |>.under (by decide) |>.under (by decide) |>.under (by decide) |>.under (by decide)
    |>.top
    |>.under (by decide) |>.under (by decide) |>.under (by decide) |>.under (by decide)
    |>.under (by decide) |>.under (by decide) |>.under (by decide) |>.under (by decide)

theorem levels_compose_iff_module :
    total twoClimbs "mod/quiz/view.php" 6 = "@/mod/quiz"
    ∧ total twoClimbs "mod/quiz/view.php" 3 = "@"
    ∧ total twoClimbs "mod/quiz/view.php" 3 = total twoClimbs "mod/quiz/view.php" 16 := by
  have hpath : total twoClimbs "mod/quiz/view.php" 6 = "@/mod/quiz" := by decide +kernel
  obtain ⟨hlevels, hiff⟩ := levels_compose_iff built_twoClimbs built_twoClimbs
    (by decide +kernel : IsDirname twoClimbs 5 6 1) (by decide +kernel : IsArgument twoClimbs 4 5)
    (by decide +kernel : IsDirname twoClimbs 3 4 1)
    (by decide +kernel : IsDirname twoClimbs 16 17 (1 + 1))
    (by decide +kernel : total twoClimbs "mod/quiz/view.php" 17
      = total twoClimbs "mod/quiz/view.php" 6)
    (by decide +kernel) (Nat.le_refl 1)
  rw [hpath] at hlevels hiff
  refine ⟨hpath, (hlevels "@/mod" "@" (by decide) (by decide) (by decide) (by decide)).1, ?_⟩
  exact (hiff ["mod", "quiz"] (by decide) (by decide)).2 (Or.inl (by decide))

/-- In a file at the root, the same two levels lead to the root in two calls, and
above it in one. -/
theorem above_root_differs :
    IsDirname twoClimbs 5 6 1 ∧ IsArgument twoClimbs 4 5 ∧ IsDirname twoClimbs 3 4 1
    ∧ IsDirname twoClimbs 16 17 2
    ∧ total twoClimbs "index.php" 6 = "@" ∧ total twoClimbs "index.php" 17 = "@"
    ∧ total twoClimbs "index.php" 3 = "@" ∧ total twoClimbs "index.php" 16 = "@/.."
    ∧ (PathExpression.find twoClimbs "index.php").map PathExpression.symbolic
      = [("@/lib.php" : Text), ("@/../lib.php" : Text)] := by
  refine ⟨by decide +kernel, by decide +kernel, by decide +kernel, by decide +kernel,
    by decide +kernel, by decide +kernel, by decide +kernel, by decide +kernel,
    by decide +kernel⟩

-- ======================================================== what is dropped

/-- First segments of a path are the front of it. -/
theorem prefix_joinSlash_front {front all : List Text} (hne : front ≠ [])
    (h : front <+: all) : Text.joinSlash front <+: Text.joinSlash all := by
  obtain ⟨back, rfl⟩ := h
  by_cases hback : back = []
  · subst hback
    rewrite [List.append_nil]
    exact List.prefix_rfl
  · rw [Text.joinSlash_append hne hback]
    exact List.prefix_append _ _

theorem infix_joinSlash_front {front all : List Text} (hne : front ≠ [])
    (h : front <+: all) : Text.joinSlash front <:+: Text.joinSlash all :=
  (prefix_joinSlash_front hne h).isInfix

/-- A path that starts at the root stands for itself in code. -/
theorem renderValue_anchored {path : Text} (h : isAnchored path = true) :
    renderValue path = path := by
  obtain ⟨rest, rfl⟩ : ∃ rest, path = '@' :: rest :=
    List.head?_eq_some_iff.1 (eq_of_beq h)
  have hliteral : isLiteral ('@' :: rest) = false := by simp [isLiteral]
  unfold renderValue
  rw [hliteral, if_neg (by simp)]
  rfl

/-- Code has the path that it is about, if that is not a literal. -/
theorem infix_ownCode (h : IsDirname a call path count) (harg : IsArgument a path inner)
    (hl : a.Linked) (hknown : ∀ text, a.kind inner ≠ .stringLiteral text)
    (hanchored : isAnchored (total a file path) = true) :
    total a file path <:+: ownCode a file call := by
  have hmem : path ∈ a.childrenByRole call "args" := List.mem_of_mem_head? h.first
  have hrender : render a (total a file) path = total a file path := by
    rw [harg.total_eq hl] at hanchored ⊢
    unfold render
    dsimp only
    rw [harg.operand]
    split
    · next text hkind =>
      rw [Contribution.total_eq hl]
      unfold ofNode
      rw [hkind]
    · next text hkind => exact absurd hkind (hknown text)
    · rw [renderValue_anchored hanchored]
      split
      · next hempty =>
        rw [List.isEmpty_iff.1 hempty] at hanchored
        cases hanchored
      · rfl
  have hargs : total a file path <:+: renderArgs a (total a file) call :=
    Text.infix_join (List.mem_map.2 ⟨path, hmem, hrender⟩)
  have hcode : renderArgs a (total a file) call
      <:+: "dirname(" ++ renderArgs a (total a file) call ++ ")" :=
    ⟨"dirname(", ")", rfl⟩
  exact (hargs.trans hcode).trans ⟨['{'], ['}'], rfl⟩

/-- All that matters of the last segment is that there is one. -/
theorem dropLevels?_of_last {path last : Text} {front : List Text}
    (h : isAnchored path = true) (hsegs : segments (collapseDots path) = front ++ [last])
    (hlast : last ≠ []) (hroot : last ≠ "@") {count : Nat} (hcount : 1 ≤ count) :
    dropLevels? path count
      = (above? front).bind (levelsUp? (min (count - 1) front.length)) := by
  have hpath : collapseDots path ≠ "@" := by
    intro heq
    rw [heq] at hsegs
    have hone : [] ++ [("@" : Text)] = front ++ [last] := hsegs
    exact hroot (List.cons.inj (List.append_inj' hone rfl).2).1.symm
  obtain ⟨more, rfl⟩ : ∃ more, count = more + 1 := ⟨count - 1, by omega⟩
  rw [dropLevels?_anchored h, hsegs, List.length_append, List.length_singleton,
    Nat.add_min_add_right, Nat.add_sub_cancel]
  simp only [levelsUp?]
  rw [levelUp?_of_last hsegs hlast hpath]

/-- Where no segment is empty, a call leaves segments above the last one, or is
at an end: above the root, or without a path. -/
theorem dropLevels?_front {path last : Text} {front : List Text}
    (h : isAnchored path = true) (hsegs : segments (collapseDots path) = front ++ [last])
    (hlast : last ≠ []) (hroot : last ≠ "@") (hne : ∀ s ∈ front, s ≠ []) {count : Nat}
    (hcount : 1 ≤ count) :
    (count ≤ front.length → ∃ kept, kept ≠ [] ∧ kept <+: front
      ∧ dropLevels? path count = some (Text.joinSlash kept))
    ∧ (front.length < count → dropLevels? path count
      = if front.head? = some ("@" : Text) then some ("@/.." : Text) else none) := by
  have hfront : Segmented front :=
    (segmented_segments (collapseDots path)).sublist (by
      rw [hsegs]
      exact List.sublist_append_left _ _)
  rw [dropLevels?_of_last h hsegs hlast hroot hcount]
  cases front with
  | nil => exact ⟨fun hle => absurd (Nat.le_trans hcount hle) (Nat.lt_irrefl 0), fun _ => rfl⟩
  | cons first names =>
      rw [above?_of_head (hne first List.mem_cons_self), Option.bind_some, List.length_cons]
      refine ⟨fun hle => ⟨first :: names.take (names.length - (count - 1)), ?_, ?_, ?_⟩,
        fun hlt => ?_⟩
      · exact List.cons_ne_nil _ _
      · exact List.cons_prefix_cons.2 ⟨rfl, List.take_prefix _ _⟩
      · rw [Nat.min_eq_left (by omega), levelsUp?_take hfront hne (by omega)]
      · have hone : segments first = [] ++ [first] := hfront.whole first List.mem_cons_self
        rw [Nat.min_eq_right (by omega), levelsUp?_all hfront hne, List.head?_cons]
        by_cases hfirst : first = "@"
        · subst hfirst
          rfl
        · rw [if_neg (by simpa using hfirst)]
          exact levelUp?_of_last hone (hne first List.mem_cons_self) hfirst

/-- A `dirname` call does not look at the last segment of its path. From the first
level on, its result is made of the segments above, whatever the last one is: a
name or a value that is not known. Where no segment is empty, a part of the
last segment that is not above it is in the result only if no level is dropped,
or if the levels run out at a first segment that is more than the root. Then
the result is the code of the call, which has the path as it is. -/
theorem dirname_discards_last (hb : a.Built) (hcall : IsDirname a call path count)
    {front : List Text} {last part : Text}
    (hanchored : isAnchored (total a file path) = true)
    (hsegs : segments (collapseDots (total a file path)) = front ++ [last])
    (hpart : part <:+: last) (habove : ¬part <:+: "@/..") :
    (1 ≤ count → total a file call
      = ((above? front).bind (levelsUp? (min (count - 1) front.length))).getD
          (ownCode a file call))
    ∧ ((∀ s ∈ front, s ≠ []) → ¬part <:+: Text.joinSlash front →
      (part <:+: total a file call
        ↔ count = 0 ∨ front.head? ≠ some ("@" : Text) ∧ front.length < count
          ∧ part <:+: ownCode a file call))
    ∧ ∀ inner, IsArgument a path inner → (∀ text, a.kind inner ≠ .stringLiteral text) →
      part <:+: ownCode a file call := by
  have hlast : last ≠ [] := by
    rintro rfl
    exact habove (hpart.trans List.nil_infix)
  have hroot : last ≠ "@" := by
    rintro rfl
    exact habove (hpart.trans ⟨[], "/..", rfl⟩)
  have hmem : last ∈ segments (collapseDots (total a file path)) := by
    rw [hsegs]
    exact List.mem_append_right _ List.mem_cons_self
  have htotal := hcall.total_eq hb.linked file
  refine ⟨fun hcount => ?_, fun hne hnew => ?_, fun inner harg hknown => ?_⟩
  · rw [htotal, dropLevels?_of_last hanchored hsegs hlast hroot hcount]
  · rcases Nat.eq_zero_or_pos count with rfl | hcount
    · rw [htotal, dropLevels?_anchored hanchored, Nat.zero_min]
      exact iff_of_true (hpart.trans (infix_of_mem_segments hmem)) (Or.inl rfl)
    · obtain ⟨hshort, hlong⟩ := dropLevels?_front hanchored hsegs hlast hroot hne hcount
      rcases Nat.lt_or_ge front.length count with hlt | hle
      · rw [htotal, hlong hlt]
        by_cases hhead : front.head? = some ("@" : Text)
        · rw [if_pos hhead]
          exact iff_of_false habove (by
            rintro (rfl | ⟨hfirst, -⟩)
            · exact absurd hcount (Nat.lt_irrefl 0)
            · exact hfirst hhead)
        · rw [if_neg hhead]
          exact ⟨fun h => Or.inr ⟨hhead, hlt, h⟩, by
            rintro (rfl | ⟨-, -, h⟩)
            · exact absurd hcount (Nat.lt_irrefl 0)
            · exact h⟩
      · obtain ⟨kept, hkept, hprefix, hdrop⟩ := hshort hle
        rw [htotal, hdrop]
        exact iff_of_false (fun h => hnew (h.trans (infix_joinSlash_front hkept hprefix)))
          (by omega)
  · have hwhole : part <:+: total a file path :=
      hpart.trans (infix_of_mem_segments (mem_segments_of_collapseDots hmem hlast))
    exact hwhole.trans (infix_ownCode hcall harg hb.linked hknown hanchored)

/-- Some levels up from a path that ends in a variable. -/
def unknownUp (s count : Text) : Arena :=
  (Arena.empty (Bytes.ofText
      ("require dirname($CFG->dirroot.'" ++ s ++ "'.$x, " ++ count ++ ").'/lib.php';")))
    |>.push none "" .expressionStatement ⟨0, 50 + s.length + count.length⟩ 1 1
    |>.push (some 0) "expr" (.inclusion .require) ⟨0, 49 + s.length + count.length⟩ 1 1
    |>.push (some 1) "expr" .concat ⟨8, 49 + s.length + count.length⟩ 1 1
    |>.push (some 2) "left" (.funcCall (some "dirname")) ⟨8, 38 + s.length + count.length⟩ 1 1
    |>.push (some 3) "args" .arg ⟨16, 35 + s.length⟩ 1 1
    |>.push (some 4) "value" .concat ⟨16, 35 + s.length⟩ 1 1
    |>.push (some 5) "left" .concat ⟨16, 32 + s.length⟩ 1 1
    |>.push (some 6) "left" (.propertyFetch (some "dirroot")) ⟨16, 29⟩ 1 1
    |>.push (some 7) "var" (.variableRef (some "CFG")) ⟨16, 20⟩ 1 1
    |>.push (some 6) "right" (.stringLiteral s) ⟨30, 32 + s.length⟩ 1 1
    |>.push (some 5) "right" (.variableRef (some "x")) ⟨33 + s.length, 35 + s.length⟩ 1 1
    |>.push (some 3) "args" .arg ⟨37 + s.length, 37 + s.length + count.length⟩ 1 1
    |>.push (some 11) "value" (.numberLiteral count)
        ⟨37 + s.length, 37 + s.length + count.length⟩ 1 1
    |>.push (some 2) "right" (.stringLiteral "/lib.php")
        ⟨39 + s.length + count.length, 49 + s.length + count.length⟩ 1 1

theorem built_unknownUp (s count : Text) : (unknownUp s count).Built := by
  refine (Arena.Built.empty _).top
    |>.under ?_ |>.under ?_ |>.under ?_ |>.under ?_ |>.under ?_ |>.under ?_ |>.under ?_
    |>.under ?_ |>.under ?_ |>.under ?_ |>.under ?_ |>.under ?_ |>.under ?_
  all_goals
    simp only [Arena.size_push]
    omega

theorem dirname_discards_last_neighbour :
    total (unknownUp "-old/" "2") "index.php" 4 = "@-old/\x7b$x\x7d"
    ∧ ("\x7b$x\x7d" : Text) <:+: total (unknownUp "-old/" "2") "index.php" 3 := by
  have hpath : total (unknownUp "-old/" "2") "index.php" 4 = "@-old/\x7b$x\x7d" := by
    decide +kernel
  have hsegs : segments (collapseDots (total (unknownUp "-old/" "2") "index.php" 4))
      = [("@-old" : Text)] ++ [("\x7b$x\x7d" : Text)] := by
    rw [hpath]
    decide
  obtain ⟨-, hiff, hcode⟩ := dirname_discards_last (built_unknownUp "-old/" "2")
    (by decide +kernel : IsDirname (unknownUp "-old/" "2") 3 4 2)
    (by rw [hpath]; rfl) hsegs List.infix_rfl (by decide)
  have hargument : IsArgument (unknownUp "-old/" "2") 4 5 := by decide +kernel
  have hkind : (unknownUp "-old/" "2").kind 5 = .concat := by decide +kernel
  have hown := hcode 5 hargument (fun text h => by rw [hkind] at h; cases h)
  exact ⟨hpath, (hiff (by decide) (by decide)).2 (Or.inr ⟨by decide, by decide, hown⟩)⟩

/-- A directory of a name that is not known is dropped, and the path goes on as if
it were one level. -/
theorem unknown_segment_dropped :
    IsDirname (unknownUp "/mod/" "1") 3 4 1
    ∧ total (unknownUp "/mod/" "1") "index.php" 4 = "@/mod/\x7b$x\x7d"
    ∧ collapseDots "@/mod/\x7b$x\x7d" = "@/mod/\x7b$x\x7d"
    ∧ total (unknownUp "/mod/" "1") "index.php" 3 = "@/mod"
    ∧ ¬("$x" : Text) <:+: total (unknownUp "/mod/" "1") "index.php" 3
    ∧ (PathExpression.find (unknownUp "/mod/" "1") "index.php").map PathExpression.symbolic
      = [("@/mod/lib.php" : Text)] := by
  refine ⟨by decide +kernel, by decide +kernel, by decide, by decide +kernel, by decide +kernel,
    by decide +kernel⟩

end ComponentPaths.Contribution
