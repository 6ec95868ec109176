/-
Calls of `dirname` with a count that is written out.

On a path of names below the root, a count that fits a machine word takes off as
many names, and stops above the root: one level more than there are names
reaches it, and the cap on the count is just that. So the largest count is as good
as the first that is too large.

Only a path that starts at the root is collapsed before levels are taken off it.
A root further on is a name like any other, even if collapsing would bring it to
the front, and the result does not start at the root either
(`isAnchored_dropLevels?`). That is where the closed form ends
(`counted_levels_closed`).
-/
import ComponentPaths.Proofs.PathExpression.Levels

namespace ComponentPaths

/-- Decimal digits are read as a word if their number fits one. -/
theorem Text.toWord?_of_digits {digits : Text} (hne : digits ≠ [])
    (hdigits : ∀ c ∈ digits, c.isDigit = true) (hword : natOfDigits digits < wordCount) :
    toWord? digits = some (natOfDigits digits) := by
  have hsign : dropHead? ['+'] digits = none := by
    obtain ⟨c, rest, rfl⟩ := List.exists_cons_of_ne_nil hne
    have hc : '+' ≠ c := by
      rintro rfl
      exact absurd (hdigits '+' List.mem_cons_self) (by decide)
    rw [dropHead?, if_neg hc]
  have hempty : digits.isEmpty = false := List.isEmpty_eq_false_iff.2 hne
  have hall : digits.all Char.isDigit = true := List.all_eq_true.2 hdigits
  unfold toWord?
  dsimp only
  rw [hsign, Option.getD_none, hempty, hall, if_neg (by decide), if_pos hword]

namespace Contribution

open Symbolic

-- ================================================================== counts

/-- A call of `dirname` whose second argument is a number. -/
structure CountsLevels (a : Arena) (call path : Nat) (digits : Text) : Prop where
  kind : (a.kind call).isDirname = true
  first : (a.childrenByRole call "args").head? = some path
  second : ∃ arg literal, (a.childrenByRole call "args")[1]? = some arg
    ∧ a.childByRole? arg "value" = some literal ∧ a.kind literal = .numberLiteral digits

variable {a : Arena} {file : Text} {call path : Nat} {digits : Text}

/-- A count that fits a word is how many levels the call drops. -/
theorem CountsLevels.isDirname (h : CountsLevels a call path digits) (hne : digits ≠ [])
    (hdigits : ∀ c ∈ digits, c.isDigit = true)
    (hword : Text.natOfDigits digits < Text.wordCount) :
    IsDirname a call path (Text.natOfDigits digits) := by
  refine ⟨h.kind, h.first, ?_⟩
  obtain ⟨arg, literal, harg, hliteral, hkind⟩ := h.second
  unfold levels
  simp only [harg, Option.bind_some, hliteral, hkind, Text.toWord?_of_digits hne hdigits hword,
    Option.getD_some]

-- ================================================================= anchors

/-- A part at the front of a path that does not start at the root does not either. -/
theorem isAnchored_of_prefix {front path : Text} (h : front <+: path)
    (hpath : isAnchored path = false) : isAnchored front = false := by
  obtain ⟨rest, rfl⟩ := h
  cases front with
  | nil => rfl
  | cons c front => exact hpath

/-- One level up from a path that does not start at the root does not lead there, -/
theorem isAnchored_levelUp? {path up : Text} (h : isAnchored path = false)
    (hup : levelUp? path = some up) : isAnchored up = false := by
  have hroot : path ≠ "@" := by
    rintro rfl
    cases h
  rw [levelUp?, if_neg hroot] at hup
  rcases prefix_of_dropLastSegment? hup with rfl | ⟨front, hne, hfront, rfl⟩
  · rfl
  · have hprefix := prefix_joinSlash_front hne hfront
    rw [joinSlash_segments] at hprefix
    exact isAnchored_of_prefix hprefix h

/-- and more levels do not either. -/
theorem isAnchored_levelsUp? {count : Nat} {path left : Text} (h : isAnchored path = false)
    (hleft : levelsUp? count path = some left) : isAnchored left = false := by
  induction count generalizing path with
  | zero =>
      cases hleft
      exact h
  | succ count ih =>
      obtain ⟨up, hup, hleft⟩ := Option.bind_eq_some_iff.1 hleft
      exact ih (isAnchored_levelUp? h hup) hleft

/-- No level leads to the root from a path that does not start there. -/
theorem isAnchored_dropLevels? {count : Nat} {path left : Text} (h : isAnchored path = false)
    (hleft : dropLevels? path count = some left) : isAnchored left = false := by
  unfold dropLevels? at hleft
  dsimp only at hleft
  rw [h, if_neg Bool.false_ne_true] at hleft
  exact isAnchored_levelsUp? h hleft

theorem IsDirname.isAnchored_total {count : Nat} (h : IsDirname a call path count)
    (hl : a.Linked) (hpath : isAnchored (total a file path) = false) :
    isAnchored (total a file call) = false := by
  rw [h.total_eq hl]
  cases hdrop : dropLevels? (total a file path) count with
  | none => rfl
  | some left => exact isAnchored_dropLevels? hpath hdrop

-- ============================================================= closed form

/-- A `dirname` call with a written count, on a contribution that collapses to names
below the root. If the contribution starts at the root, the result is the path of
the names that are left, the root if none is, and the directory above the root for
every larger count of a machine word. If it does not, neither does the result. -/
theorem counted_levels_closed {n : Nat} {names : List Text} (hb : a.Built)
    (hcall : CountsLevels a call path digits) (hne : digits ≠ [])
    (hdigits : ∀ c ∈ digits, c.isDigit = true) (hvalue : Text.natOfDigits digits = n)
    (hword : n < Text.wordCount)
    (hsegs : segments (collapseDots (total a file path)) = ("@" : Text) :: names)
    (hnames : ∀ s ∈ names, s ≠ []) :
    (isAnchored (total a file path) = true →
      (n < names.length →
        total a file call = Text.joinSlash ("@" :: names.take (names.length - n)))
      ∧ (n = names.length → total a file call = "@")
      ∧ (names.length < n → total a file call = "@/.."))
    ∧ (isAnchored (total a file path) = false → isAnchored (total a file call) = false) := by
  subst hvalue
  have hdirname := hcall.isDirname hne hdigits hword
  refine ⟨fun hanchored => ?_, hdirname.isAnchored_total hb.linked⟩
  have htotal := hdirname.total_eq hb.linked file
  rw [dropLevels?_root hanchored hsegs hnames, Option.getD_some, aboveNames] at htotal
  refine ⟨fun hlt => ?_, fun heq => ?_, fun hlt => ?_⟩
  · rw [htotal, if_pos (Nat.le_of_lt hlt)]
  · rw [htotal, if_pos (Nat.le_of_eq heq), heq, Nat.sub_self, List.take_zero,
      Text.joinSlash_singleton]
  · rw [htotal, if_neg (Nat.not_le.2 hlt)]

/-- Some levels up from a path that is one node, with `code` as its source. -/
def countedUp (kind : Arena.Kind) (code count : Text) : Arena :=
  (Arena.empty (Bytes.ofText ("require dirname(" ++ code ++ ", " ++ count ++ ").'/lib.php';")))
    |>.push none "" .expressionStatement ⟨0, 31 + code.length + count.length⟩ 1 1
    |>.push (some 0) "expr" (.inclusion .require) ⟨0, 30 + code.length + count.length⟩ 1 1
    |>.push (some 1) "expr" .concat ⟨8, 30 + code.length + count.length⟩ 1 1
    |>.push (some 2) "left" (.funcCall (some "dirname")) ⟨8, 19 + code.length + count.length⟩ 1 1
    |>.push (some 3) "args" .arg ⟨16, 16 + code.length⟩ 1 1
    |>.push (some 4) "value" kind ⟨16, 16 + code.length⟩ 1 1
    |>.push (some 3) "args" .arg ⟨18 + code.length, 18 + code.length + count.length⟩ 1 1
    |>.push (some 6) "value" (.numberLiteral count)
        ⟨18 + code.length, 18 + code.length + count.length⟩ 1 1
    |>.push (some 2) "right" (.stringLiteral "/lib.php")
        ⟨20 + code.length + count.length, 30 + code.length + count.length⟩ 1 1

theorem built_countedUp (kind : Arena.Kind) (code count : Text) :
    (countedUp kind code count).Built := by
  refine (Arena.Built.empty _).top
    |>.under ?_ |>.under ?_ |>.under ?_ |>.under ?_ |>.under ?_ |>.under ?_ |>.under ?_
    |>.under ?_
  all_goals
    simp only [Arena.size_push]
    omega

/-- The largest count there is, from two names below the root. -/
def farAbove : Arena :=
  countedUp .magicDir "__DIR__" "18446744073709551615"

theorem counted_levels_closed_max :
    total farAbove "mod/quiz/view.php" 4 = "@/mod/quiz"
    ∧ total farAbove "mod/quiz/view.php" 3 = "@/.." := by
  have hbuilt : farAbove.Built := built_countedUp _ _ _
  have hpath : total farAbove "mod/quiz/view.php" 4 = "@/mod/quiz" := by
    decide +kernel
  have hcall : CountsLevels farAbove 3 4 "18446744073709551615" :=
    ⟨by decide +kernel, by decide +kernel, 6, 7, by decide +kernel, by decide +kernel,
      by decide +kernel⟩
  have hsegs : segments (collapseDots (total farAbove "mod/quiz/view.php" 4))
      = [("@" : Text), ("mod" : Text), ("quiz" : Text)] := by
    rw [hpath]
    decide
  have hdigits : ("18446744073709551615" : Text).all Char.isDigit = true := by decide
  have hvalue : Text.natOfDigits "18446744073709551615" = Text.wordCount - 1 := by decide +kernel
  obtain ⟨hclosed, -⟩ := counted_levels_closed hbuilt hcall (by decide)
    (List.all_eq_true.1 hdigits) hvalue (by decide) hsegs (by decide)
  exact ⟨hpath, (hclosed (by rw [hpath]; rfl)).2.2 (by decide)⟩

/-- One level up from a path that has the root further on. -/
def innerRoot : Arena :=
  countedUp (.stringLiteral "a/../@/lib") "'a/../@/lib'" "1"

/-- The path collapses to a name below the root, but is not collapsed: what is left
is not the root. -/
theorem inner_root_is_a_name :
    innerRoot.Built ∧ CountsLevels innerRoot 3 4 "1"
    ∧ total innerRoot "index.php" 4 = "a/../@/lib"
    ∧ segments (collapseDots "a/../@/lib") = [("@" : Text), ("lib" : Text)]
    ∧ total innerRoot "index.php" 3 = "a/../@"
    ∧ total innerRoot "index.php" 3 ≠ "@"
    ∧ (PathExpression.find innerRoot "index.php").map PathExpression.symbolic
      = [("@/@/lib.php" : Text)] := by
  have hcall : CountsLevels innerRoot 3 4 "1" :=
    ⟨by decide +kernel, by decide +kernel, 6, 7, by decide +kernel, by decide +kernel,
      by decide +kernel⟩
  have hleft : total innerRoot "index.php" 3 = "a/../@" := by decide +kernel
  refine ⟨built_countedUp _ _ _, hcall, by decide +kernel, by decide, hleft, ?_, by decide +kernel⟩
  rw [hleft]
  decide

end Contribution

end ComponentPaths
