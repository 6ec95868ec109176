/-
The way from a directory to a target is the shortest there is.

A walk is bounded from below by how far apart its ends are: the names of the one
and of the other, without those they share. One step changes that by one at the
most (`apart_take`), for a name more or less at the end of a directory lets it
share at most one name more or less, so a walk has as many steps as its ends are
apart (`apart_le_walk`). A directory other than the root is always left by a
step up. From there on the steps of `Relative.steps` are as many as the parent
and the target are apart (`length_steps`), which is what the limit on the shared
names is for.
-/
import ComponentPaths.Proofs.Symbolic.Collapse
import ComponentPaths.Proofs.Symbolic.Walking

namespace ComponentPaths.Relative

open Symbolic (Step)

-- ========================================================== shared names

theorem commonLength_le_left (source target : List Text) :
    commonLength source target ≤ source.length := by
  fun_induction commonLength source target with
  | case1 as b bs ih => exact Nat.succ_le_succ ih
  | case2 => exact Nat.zero_le _
  | case3 => exact Nat.zero_le _

theorem commonLength_le_right (source target : List Text) :
    commonLength source target ≤ target.length := by
  fun_induction commonLength source target with
  | case1 as b bs ih => exact Nat.succ_le_succ ih
  | case2 => exact Nat.zero_le _
  | case3 => exact Nat.zero_le _

/-- A directory shares all of itself. -/
theorem commonLength_self (dir : List Text) : commonLength dir dir = dir.length := by
  induction dir with
  | nil => rfl
  | cons s dir ih => rw [commonLength, if_pos rfl, ih, List.length_cons]

/-- What a directory shares with a target, its beginnings share as far as they go. -/
theorem commonLength_append (dir more target : List Text) :
    commonLength dir target = min (commonLength (dir ++ more) target) dir.length := by
  induction dir generalizing target with
  | nil => simp [commonLength]
  | cons s dir ih =>
      cases target with
      | nil => simp [commonLength]
      | cons t target =>
          rw [List.cons_append, commonLength, commonLength]
          split
          · rw [ih target, List.length_cons]
            omega
          · exact (Nat.zero_min _).symm

/-- The longest list that two lists start with. -/
structure LongestShared (shared source target : List Text) : Prop where
  left : shared <+: source
  right : shared <+: target
  longest : ∀ other, other <+: source → other <+: target → other <+: shared

/-- No shared front is longer than the common one. -/
theorem length_le_commonLength {other source target : List Text} (hs : other <+: source)
    (ht : other <+: target) : other.length ≤ commonLength source target := by
  obtain ⟨s, rfl⟩ := hs
  obtain ⟨t, rfl⟩ := ht
  induction other with
  | nil => exact Nat.zero_le _
  | cons a other ih =>
      rw [List.cons_append, List.cons_append, commonLength, if_pos rfl]
      exact Nat.succ_le_succ ih

/-- And the common front is shared. -/
theorem longestShared_take (source target : List Text) :
    LongestShared (source.take (commonLength source target)) source target := by
  refine ⟨List.take_prefix _ _, ?_, fun other hs ht => ?_⟩
  · rw [take_commonLength source target (Nat.le_refl _)]
    exact List.take_prefix _ _
  · rw [List.prefix_iff_eq_take.1 hs]
    exact List.take_prefix_take_left (length_le_commonLength hs ht)

-- ================================================================= walks

/-- The directory that steps lead to, as `Step.take` has it with its innermost
name first. -/
def walk (dir way : List Text) : List Text :=
  way.foldl (fun dir s => (Step.ofSegment s).take dir) dir

/-- A way can be walked in two parts. -/
theorem walk_append (dir way more : List Text) :
    walk dir (way ++ more) = walk (walk dir way) more :=
  List.foldl_append

/-- Steps up take off as many names. -/
theorem walk_up (dir : List Text) (n : Nat) :
    walk dir (List.replicate n "..") = dir.drop n := by
  induction n generalizing dir with
  | zero => rfl
  | succ n ih =>
      rw [List.replicate_succ]
      exact (ih dir.tail).trans List.drop_tail

/-- A name of a file or a directory. -/
structure IsName (s : Text) : Prop where
  ne_nil : s ≠ []
  noSlash : '/' ∉ s
  ne_dot : s ≠ "."
  ne_up : s ≠ ".."

instance (s : Text) : Decidable (IsName s) :=
  decidable_of_iff (s ≠ [] ∧ '/' ∉ s ∧ s ≠ "." ∧ s ≠ "..")
    ⟨fun ⟨h₁, h₂, h₃, h₄⟩ => ⟨h₁, h₂, h₃, h₄⟩, fun ⟨h₁, h₂, h₃, h₄⟩ => ⟨h₁, h₂, h₃, h₄⟩⟩

/-- Names lead down. -/
theorem walk_names {names : List Text} (h : ∀ s ∈ names, IsName s) (dir : List Text) :
    walk dir names = names.reverse ++ dir := by
  induction names generalizing dir with
  | nil => rfl
  | cons s names ih =>
      obtain ⟨hne, -, hdot, hup⟩ := h s List.mem_cons_self
      have hstep : walk dir (s :: names) = walk (s :: dir) names := by
        rw [walk, List.foldl_cons, Step.ofSegment_name hne hdot hup]
        rfl
      rw [hstep, ih fun t ht => h t (List.mem_cons_of_mem _ ht), List.reverse_cons,
        List.append_assoc]
      rfl

-- ============================================================== distance

/-- How many names of a directory, innermost first, and of a target are not shared. -/
def apart (dir target : List Text) : Nat :=
  dir.length + target.length - 2 * commonLength dir.reverse target

/-- There is nothing between a directory and itself. -/
theorem apart_self (target : List Text) : apart target.reverse target = 0 := by
  unfold apart
  rw [List.reverse_reverse, commonLength_self, List.length_reverse]
  omega

/-- A name more: two ends come closer by one, or get further apart by one. -/
theorem apart_cons (name : Text) (dir target : List Text) :
    apart dir target ≤ apart (name :: dir) target + 1
      ∧ apart (name :: dir) target ≤ apart dir target + 1 := by
  have hshared := commonLength_append dir.reverse [name] target
  have hleft := commonLength_le_left (dir.reverse ++ [name]) target
  rw [List.length_append, List.length_singleton] at hleft
  unfold apart
  rw [List.reverse_cons, List.length_cons]
  rw [List.length_reverse] at hshared hleft
  omega

/-- One step brings the target nearer by one at most. -/
theorem apart_take (dir target : List Text) (step : Step) :
    apart dir target ≤ apart (step.take dir) target + 1 := by
  cases step with
  | stay => exact Nat.le_succ _
  | up =>
      cases dir with
      | nil => exact Nat.le_succ _
      | cons name dir => exact (apart_cons name dir target).2
  | down name => exact (apart_cons name dir target).1

/-- A walk has as many steps as its ends are apart, or more. -/
theorem apart_le_walk (dir way target : List Text) :
    apart dir target ≤ apart (walk dir way) target + way.length := by
  induction way generalizing dir with
  | nil => exact Nat.le_refl _
  | cons s way ih =>
      have hstep := apart_take dir target (Step.ofSegment s)
      have hrest := ih ((Step.ofSegment s).take dir)
      show apart dir target ≤ apart (walk ((Step.ofSegment s).take dir) way) target
        + (way.length + 1)
      omega

/-- The steps to a target are as many as it is apart, counted from above the
directory if that is not the root. -/
theorem length_steps (source target : List Text) :
    (steps source target).length
      = if source = [] then apart [] target
        else apart source.reverse.tail target + 1 := by
  unfold steps
  simp only [List.length_append, List.length_replicate, List.length_drop]
  split
  · next hroot =>
    subst hroot
    simp [apart, commonLength]
  · next hdir =>
    obtain ⟨dirs, last, rfl⟩ : ∃ dirs last, source = dirs ++ [last] :=
      ⟨_, _, (List.dropLast_concat_getLast hdir).symm⟩
    have hshared := commonLength_append dirs [last] target
    have hright := commonLength_le_right dirs target
    have hleft := commonLength_le_left dirs target
    unfold apart
    rw [List.reverse_append, List.reverse_singleton, List.singleton_append, List.tail_cons,
      List.reverse_reverse, List.length_reverse, List.length_append, List.length_singleton]
    omega

/-- The way that is taken leads to the target. -/
theorem walk_steps (source : List Text) {target : List Text} (h : ∀ s ∈ target, IsName s) :
    walk source.reverse (steps source target) = target.reverse := by
  unfold steps
  dsimp only
  generalize hn : min (commonLength source target) (source.length - 1) = n
  have hcommon : source.take n = target.take n :=
    take_commonLength source target (by omega)
  rw [walk_append, walk_up, walk_names fun s hs => h s (List.mem_of_mem_drop hs),
    List.drop_reverse, show source.length - (source.length - n) = n by omega, hcommon,
    ← List.reverse_append, List.take_append_drop]

-- ============================================================== the path

/-- The steps that a text says, one between two separators. -/
def stepsOf (path : Text) : List Text :=
  (Text.splitSlash path).filter fun s => !s.isEmpty

/-- The way can be read off the path that is written. -/
theorem stepsOf_path (source : List Text) {target : List Text} (h : ∀ s ∈ target, IsName s) :
    stepsOf (path source target) = steps source target := by
  have hstep : ∀ s ∈ steps source target, s ≠ [] ∧ '/' ∉ s := by
    intro s hs
    rcases List.mem_append.1 hs with hs | hs
    · rw [(List.mem_replicate.1 hs).2]
      decide
    · obtain ⟨hne, hslash, -, -⟩ := h s (List.mem_of_mem_drop hs)
      exact ⟨hne, hslash⟩
  unfold stepsOf path
  generalize hway : steps source target = way at hstep
  by_cases hnone : way = []
  · subst hnone
    rfl
  · have hsplit : Text.splitSlash (Text.joinSlash way) = way :=
      List.splitOn_intercalate '/' (fun s hs => (hstep s hs).2) hnone
    rw [hsplit, List.filter_eq_self]
    intro s hs
    simp [(hstep s hs).1]

theorem takeWhile_steps (source : List Text) {target : List Text}
    (h : ∀ s ∈ target, IsName s) :
    ((steps source target).takeWhile (fun s : Text => s = "..")).length
      = source.length - min (commonLength source target) (source.length - 1) := by
  have hnames : ∀ n, (target.drop n).takeWhile (fun s : Text => s = "..") = [] := by
    intro n
    cases hdrop : target.drop n with
    | nil => rfl
    | cons s rest =>
        have hs : s ∈ target.drop n := hdrop ▸ List.mem_cons_self
        exact List.takeWhile_cons_of_neg (by simpa using (h s (List.mem_of_mem_drop hs)).ne_up)
  unfold steps
  dsimp only
  rw [List.takeWhile_append_of_pos fun s hs => decide_eq_true (List.mem_replicate.1 hs).2,
    hnames, List.append_nil, List.length_replicate]

/-- A relative path leads from the directory to the target, and starts with a step up
for each directory that the target does not share, but with one at the least unless
the directory is the root. No way to the target has fewer steps that starts, unless
at the root, with a step up. -/
theorem path_shortest (source target : List Text) (h : ∀ s ∈ target, IsName s) :
    walk source.reverse (stepsOf (path source target)) = target.reverse
    ∧ (∃ shared, LongestShared shared source target
      ∧ ((stepsOf (path source target)).takeWhile (fun s : Text => s = "..")).length
        = if source = [] then 0 else max 1 (source.length - shared.length))
    ∧ ∀ way, (source ≠ [] → way.head? = some (".." : Text)) →
      walk source.reverse way = target.reverse →
      (stepsOf (path source target)).length ≤ way.length := by
  rw [stepsOf_path source h]
  refine ⟨walk_steps source h, ⟨_, longestShared_take source target, ?_⟩, ?_⟩
  · have hle := commonLength_le_left source target
    rw [takeWhile_steps source h, List.length_take, Nat.min_eq_left hle]
    split
    · next hroot => rw [hroot, List.length_nil, Nat.zero_sub]
    · next hdir =>
      have hpos : 0 < source.length := List.length_pos_iff.2 hdir
      omega
  · intro way hup hway
    rw [length_steps]
    split
    · next hroot =>
      subst hroot
      have hlow := apart_le_walk [] way target
      rw [show walk [] way = target.reverse from hway, apart_self] at hlow
      omega
    · next hdir =>
      -- the first step is the same for all, and the bound holds for the others
      obtain ⟨rest, rfl⟩ : ∃ rest, way = (".." : Text) :: rest :=
        List.head?_eq_some_iff.1 (hup hdir)
      have hlow := apart_le_walk source.reverse.tail rest target
      rw [show walk source.reverse.tail rest = target.reverse from hway, apart_self] at hlow
      rw [List.length_cons]
      omega

/-- A file in the directory `mod/assign`. -/
def insideAssign : List Text :=
  ["mod", "assign", "locallib.php"]

/-- To a file in the directory itself the way goes up once and comes back, three steps
in all. Without the step up there is one of a single step. -/
theorem path_shortest_inside :
    (∀ s ∈ insideAssign, IsName s)
    ∧ path (insideAssign.take 2) insideAssign = "../assign/locallib.php"
    ∧ (∀ way, way.head? = some (".." : Text) →
      walk (insideAssign.take 2).reverse way = insideAssign.reverse → 3 ≤ way.length)
    ∧ walk (insideAssign.take 2).reverse (insideAssign.drop 2) = insideAssign.reverse := by
  have hnames : ∀ s ∈ insideAssign, IsName s := by decide
  refine ⟨hnames, by decide, fun way hup hway => ?_, by decide⟩
  exact (path_shortest (insideAssign.take 2) insideAssign hnames).2.2 way (fun _ => hup) hway

end ComponentPaths.Relative
