/-
References inside of a component that has been moved.

A relative path is made where a file was, and is followed where its copy is. The
two agree as long as the path goes up within the component only, for then it
does not depend on what is above (`steps_append`), and so leads through the same
directories of the copy (`walk_steps_above`).

A file in the topmost directory of a component is an exception. Its relative
paths go up once all the same, out of the component and back by the name its
directory had. So the copy leads out of the new directory, and into it again
only if that has kept the name (`out_and_back_iff`).
-/
import ComponentPaths.Proofs.Decision.Rewrites
import ComponentPaths.Proofs.Extract.Complete
import ComponentPaths.Proofs.Symbolic.Denotation

namespace ComponentPaths

open Relative (IsName stepsOf)
open Symbolic

-- ============================================================ directories

theorem Text.dropWhile_reverse_append {name : Text} (h : '/' ∉ name) (rest : Text) :
    (name.reverse ++ rest).dropWhile (· != '/') = rest.dropWhile (· != '/') := by
  apply List.dropWhile_append_of_pos
  intro c hc
  rw [bne_iff_ne]
  rintro rfl
  exact h (List.mem_reverse.1 hc)

theorem Text.parentDir_of_not_mem {t : Text} (h : '/' ∉ t) : parentDir t = [] := by
  have hdrop := dropWhile_reverse_append h []
  rw [List.append_nil] at hdrop
  rw [parentDir, hdrop]
  rfl

theorem Text.parentDir_append_slash {name : Text} (t : Text) (h : '/' ∉ name) :
    parentDir (t ++ '/' :: name) = t := by
  rw [parentDir, List.reverse_append, List.reverse_cons, List.append_assoc,
    dropWhile_reverse_append h, List.singleton_append, List.dropWhile_cons_of_neg (by simp)]
  exact List.reverse_reverse t

namespace Relative

variable {dir way target names : List Text}

/-- The directory of a file that is given by names. -/
theorem dirSegments_names (h : ∀ s ∈ names, IsName s) (hne : names ≠ []) :
    dirSegments (Text.joinSlash names) = names.dropLast := by
  obtain ⟨front, last, rfl⟩ : ∃ front last, names = front ++ [last] :=
    ⟨_, _, (List.dropLast_concat_getLast hne).symm⟩
  obtain ⟨hfront, hlast⟩ := List.forall_mem_append.1 h
  have hslash := (hlast last List.mem_cons_self).noSlash
  unfold dirSegments
  rw [List.dropLast_concat]
  by_cases hnil : front = []
  · subst hnil
    rw [List.nil_append, Text.joinSlash_singleton, Text.parentDir_of_not_mem hslash]
    rfl
  · rw [Text.joinSlash_append hnil (List.cons_ne_nil _ _), Text.joinSlash_singleton,
      Text.parentDir_append_slash _ hslash, Text.splitSlash_names hfront hnil,
      List.filter_eq_self]
    intro s hs
    simpa using (hfront s hs).ne_nil

-- ==================================================================== steps

theorem commonLength_append_append (dir source target : List Text) :
    commonLength (dir ++ source) (dir ++ target) = dir.length + commonLength source target := by
  induction dir with
  | nil => simp
  | cons s dir ih =>
      rw [List.cons_append, List.cons_append, commonLength, if_pos rfl, ih, List.length_cons]
      omega

/-- From further down, the steps to a target do not depend on what is above both. -/
theorem steps_append (dir target : List Text) (h : way ≠ []) :
    steps (dir ++ way) (dir ++ target) = steps way target := by
  have hpos : 0 < way.length := List.length_pos_iff.2 h
  unfold steps
  rw [commonLength_append_append, List.length_append]
  dsimp only
  generalize commonLength way target = shared
  have hshared : min (dir.length + shared) (dir.length + way.length - 1)
      = dir.length + min shared (way.length - 1) := by omega
  have hup : dir.length + way.length - (dir.length + min shared (way.length - 1))
      = way.length - min shared (way.length - 1) := by omega
  rw [hshared, hup, List.drop_length_add_append]

/-- From a directory to what is below it, the way goes up and back. -/
theorem steps_below (dir : List Text) (last : Text) (target : List Text) :
    steps (dir ++ [last]) (dir ++ [last] ++ target) = (".." : Text) :: last :: target := by
  have hcommon := commonLength_append_append (dir ++ [last]) [] target
  rw [List.append_nil] at hcommon
  unfold steps
  rw [hcommon, List.length_append, List.length_singleton]
  dsimp only
  have hshared : min (dir.length + 1 + commonLength [] target) (dir.length + 1 - 1)
      = dir.length := by omega
  have hup : dir.length + 1 - dir.length = 1 := by omega
  rw [hshared, hup, List.append_assoc, List.drop_left]
  rfl

/-- What is above the places passed does not matter. -/
theorem walk_above {n : Nat} (hn : n ≤ dir.length) (hnames : ∀ s ∈ names, IsName s)
    (base : List Text) :
    walk (dir ++ base) (List.replicate n (".." : Text) ++ names)
      = walk dir (List.replicate n (".." : Text) ++ names) ++ base := by
  rw [walk_append, walk_append, walk_up, walk_up, walk_names hnames, walk_names hnames,
    List.drop_append_of_le_length hn, List.append_assoc]

/-- Nor does it at any time on the way to a target. -/
theorem walk_steps_above (source : List Text) (htarget : ∀ s ∈ target, IsName s)
    (base : List Text) (hway : way <+: steps source target) :
    walk (source.reverse ++ base) way = walk source.reverse way ++ base := by
  rw [List.prefix_iff_eq_take.1 hway]
  unfold steps
  dsimp only
  rw [List.take_append, List.take_replicate]
  apply walk_above
  · rw [List.length_reverse]
    omega
  · intro s hs
    exact htarget s (List.mem_of_mem_drop (List.mem_of_mem_take hs))

-- ============================================================= expressions

/-- The code for a relative path without placeholders is a literal after the
directory of the file. -/
theorem literal_of_expression? {relative code : Text} (hknown : '{' ∉ relative)
    (h : expression? relative = some code) :
    ∃ literal, code = "__DIR__ . " ++ literal
      ∧ readLiteral? literal = some ('/' :: relative, []) := by
  obtain ⟨tail, htail, rfl⟩ := Option.map_eq_some_iff.1 h
  refine ⟨tail, rfl, ?_⟩
  have hpieces : pieces ('/' :: relative) = [.literal ('/' :: relative)] := by
    have hfree : '{' ∉ '/' :: relative := by
      rw [List.mem_cons, not_or]
      exact ⟨by decide, hknown⟩
    show (chunks ('/' :: relative)).map Chunk.toPiece = _
    rw [chunks_of_not_mem (List.cons_ne_nil _ _) hfree]
    rfl
  rw [toExpression?_eq, operands, hpieces] at htail
  split at htail
  · cases htail
  · have hquote : tail = quote ('/' :: relative) ++ [] := by
      cases htail
      simp [Text.join, Operand.code, Piece.operand, Piece.render]
    rw [hquote]
    exact readLiteral?_quote _ _

end Relative

-- ================================================================== places

/-- The place that steps lead to from a place. -/
def Place.walk (place : Place) (way : List Text) : Place :=
  (Relative.walk place.reverse way).reverse

/-- On the disk, steps lead to that place if they lead anywhere. -/
theorem Disk.follow_eq_walk {d : Disk} {place final : Place} {way : List Text}
    (h : d.follow place way = .ok final) : final = place.walk way := by
  induction way generalizing place with
  | nil =>
      cases h
      exact (List.reverse_reverse _).symm
  | cons name rest ih =>
      rw [follow_of_directory (directory_of_follow h)] at h
      have hstep : place.walk (name :: rest)
          = Place.walk ((Step.ofSegment name).take place.reverse).reverse rest := by
        unfold Place.walk
        rw [List.reverse_reverse]
        rfl
      rw [hstep]
      unfold Step.ofSegment
      split at h
      · next hvoid =>
        rw [if_pos (by simpa [Path.isVoid] using hvoid)]
        show final = Place.walk place.reverse.reverse rest
        rw [List.reverse_reverse]
        exact ih h
      next hvoid =>
      rw [if_neg (by simpa [Path.isVoid] using hvoid)]
      split at h
      · next hup =>
        rw [if_pos hup]
        show final = Place.walk place.reverse.tail.reverse rest
        rw [List.tail_reverse, List.reverse_reverse]
        exact ih h
      next hup =>
      rw [if_neg hup]
      split at h
      · cases h
      · show final = Place.walk (name :: place.reverse).reverse rest
        rw [List.reverse_cons, List.reverse_reverse]
        exact ih h

/-- Steps that lead to a target in a directory and never out of the directory. -/
structure Arrives (output start : Place) (way target : List Text) : Prop where
  inside : ∀ front, front <+: way → output <+: start.walk front
  ends : start.walk way = output ++ target

/-- Steps made inside of a directory are good inside of every other one. -/
theorem arrives_steps (output : Place) (source : List Text) {target : List Text}
    (htarget : ∀ s ∈ target, IsName s) :
    Arrives output (output ++ source) (Relative.steps source target) target := by
  have hwalk : ∀ front, front <+: Relative.steps source target →
      Place.walk (output ++ source) front
        = output ++ (Relative.walk source.reverse front).reverse := by
    intro front hfront
    unfold Place.walk
    rw [List.reverse_append, Relative.walk_steps_above source htarget output.reverse hfront,
      List.reverse_append, List.reverse_reverse]
  refine ⟨fun front hfront => ?_, ?_⟩
  · rw [hwalk front hfront]
    exact List.prefix_append _ _
  · rw [hwalk _ List.prefix_rfl, Relative.walk_steps source htarget, List.reverse_reverse]

theorem Place.walk_out (output : Place) {last : Text} {target : List Text}
    (hlast : IsName last) (htarget : ∀ s ∈ target, IsName s) :
    output.walk ((".." : Text) :: last :: target) = output.dropLast ++ last :: target := by
  have hnames : ∀ s ∈ last :: target, IsName s := List.forall_mem_cons.2 ⟨hlast, htarget⟩
  show (Relative.walk output.reverse.tail (last :: target)).reverse = _
  rw [Relative.walk_names hnames, List.reverse_append, List.reverse_reverse, List.tail_reverse,
    List.reverse_reverse]

/-- The way out and back by a name does not arrive: above the directory it is
outside, and above the top there is nothing to go back from. -/
theorem not_arrives_out (output : Place) {last : Text} {target : List Text}
    (hlast : IsName last) (htarget : ∀ s ∈ target, IsName s) :
    ¬Arrives output output ((".." : Text) :: last :: target) target := by
  intro h
  have hfirst : output <+: output.dropLast := by
    have hinside := h.inside [(".." : Text)] ⟨last :: target, rfl⟩
    have hup : output.walk [(".." : Text)] = output.dropLast := by
      show output.reverse.tail.reverse = _
      rw [List.tail_reverse, List.reverse_reverse]
    rwa [hup] at hinside
  have hlength := hfirst.length_le
  have hends := congrArg List.length h.ends
  rw [Place.walk_out output hlast htarget] at hends
  simp only [List.length_append, List.length_cons, List.length_dropLast] at hends hlength
  omega

/-- Out of a directory and back by a name leads back if it is its name. -/
theorem out_and_back_iff {output : Place} {last : Text} {target : List Text} :
    output.dropLast ++ last :: target = output ++ target ↔ output.getLast? = some last := by
  rw [List.append_cons, List.append_cancel_right_eq]
  constructor
  · intro h
    rw [← h, List.getLast?_concat]
  · intro h
    obtain ⟨front, rfl⟩ := List.getLast?_eq_some_iff.1 h
    rw [List.dropLast_concat]

-- ================================================================= results

namespace Extract

variable {tree : ComponentTree} {api path below : Text} {flags : PathFlags} {decision : Decision}
  {dir inside target : List Text}

/-- The replacement of a path inside of a component is a literal with the steps
from the directory of the file to the path. -/
theorem relative_of_decide (hdir : dir ≠ []) (hinside : inside ≠ []) (htarget : target ≠ [])
    (hfile : ∀ s ∈ dir ++ inside, IsName s) (hnames : ∀ s ∈ dir ++ target, IsName s)
    (hknown : ∀ s ∈ dir ++ target, '{' ∉ s) (hstrip : stripRoot? path = some below)
    (hbelow : properSegments below = dir ++ target)
    (hdecide : Decision.decide
      (.ofPath tree api (Text.joinSlash (dir ++ inside)) flags path) = .ok decision)
    (haction : decision.action = .relativeDirectory) :
    ∃ literal relative : Text, decision.replacement = some ("__DIR__ . " ++ literal)
      ∧ readLiteral? literal = some ('/' :: relative, [])
      ∧ stepsOf relative = Relative.steps (dir ++ inside.dropLast) (dir ++ target) := by
  have hsegments : Relative.dirSegments (Text.joinSlash (dir ++ inside))
      = dir ++ inside.dropLast := by
    rw [Relative.dirSegments_names hfile (by simp [hdir]), List.dropLast_append_of_ne_nil hinside]
  have hfree : '{' ∉ Relative.path (dir ++ inside.dropLast) (dir ++ target) := by
    intro hmem
    rcases Text.mem_joinSlash hmem with heq | ⟨s, hs, hin⟩
    · cases heq
    rcases List.mem_append.1 hs with hs | hs
    · rw [(List.mem_replicate.1 hs).2] at hin
      exact absurd hin (by decide)
    · exact hknown s (List.mem_of_mem_drop hs) hin
  rcases Decision.decide_cases hdecide with ⟨hkeep, -⟩ | ⟨code, hcode, hrewrite⟩
  · rw [haction] at hkeep
    cases hkeep
  rw [haction] at hrewrite
  cases hrewrite with
  | config category rendered =>
      -- the configuration is no file of a component
      have hconfig : path = "@/config.php" := Category.shaped_of_ofPath? category
      have hroot : stripRoot? "@/config.php" = some ("config.php" : Text) := rfl
      rw [hconfig, hroot] at hstrip
      have hlength := congrArg List.length hbelow
      rw [← Option.some.inj hstrip, List.length_append] at hlength
      have hone : (properSegments "config.php").length = 1 := rfl
      have hdir' := List.length_pos_iff.2 hdir
      have htarget' := List.length_pos_iff.2 htarget
      omega
  | within strip rendered =>
      have hsame : stripRoot? path = some _ := strip
      rw [hstrip] at hsame
      cases hsame
      have hrelative : Relative.expression?
          (Relative.path (Relative.dirSegments (Text.joinSlash (dir ++ inside)))
            (properSegments below)) = some code := rendered
      rw [hsegments, hbelow] at hrelative
      obtain ⟨literal, rfl, hliteral⟩ := Relative.literal_of_expression? hfree hrelative
      exact ⟨literal, _, hcode, hliteral, Relative.stepsOf_path _ hnames⟩
  | component _ _ addressed =>
      rcases addressed with h | ⟨h, -⟩
      · cases h
      · cases h

/-- A relative path from a file of a component to another one is followed in the
copies. Wherever they are, it arrives there without leaving the new directory,
just if the file is not in the topmost directory of the component. If it is,
the path leads to the right file just if the new directory has the name of the
old one. -/
theorem internal_reference_arrives_iff (hdir : dir ≠ []) (hinside : inside ≠ [])
    (htarget : target ≠ []) (hfile : ∀ s ∈ dir ++ inside, IsName s)
    (hnames : ∀ s ∈ dir ++ target, IsName s) (hknown : ∀ s ∈ dir ++ target, '{' ∉ s)
    (hstrip : stripRoot? path = some below) (hbelow : properSegments below = dir ++ target)
    (hdecide : Decision.decide
      (.ofPath tree api (Text.joinSlash (dir ++ inside)) flags path) = .ok decision)
    (haction : decision.action = .relativeDirectory) :
    inner (Text.joinSlash dir) (Text.joinSlash (dir ++ inside)) = Text.joinSlash inside
    ∧ ∃ literal relative : Text, decision.replacement = some ("__DIR__ . " ++ literal)
      ∧ readLiteral? literal = some ('/' :: relative, [])
      ∧ ∀ output : Place,
        (Arrives output (output ++ inside.dropLast) (stepsOf relative) target
          ↔ 1 < inside.length)
        ∧ (inside.length = 1 →
          (Place.walk (output ++ inside.dropLast) (stepsOf relative) = output ++ target
            ↔ output.getLast? = dir.getLast?))
        ∧ ∀ (d : Disk) (final : Place),
          d.follow (output ++ inside.dropLast) (stepsOf relative) = .ok final →
          final = Place.walk (output ++ inside.dropLast) (stepsOf relative) := by
  obtain ⟨hdirNames, hinsideNames⟩ := List.forall_mem_append.1 hfile
  have htargetNames := (List.forall_mem_append.1 hnames).2
  refine ⟨inner_joinSlash hdir hinsideNames hinside, ?_⟩
  obtain ⟨literal, relative, hreplacement, hliteral, hsteps⟩ := relative_of_decide hdir hinside
    htarget hfile hnames hknown hstrip hbelow hdecide haction
  -- from the topmost directory of the component, the way goes out of it
  have hout : inside.length = 1 → ∃ front last, dir = front ++ [last] ∧ IsName last
      ∧ inside.dropLast = [] ∧ stepsOf relative = (".." : Text) :: last :: target := by
    intro hone
    obtain ⟨front, last, rfl⟩ : ∃ front last, dir = front ++ [last] :=
      ⟨_, _, (List.dropLast_concat_getLast hdir).symm⟩
    have hdrop : inside.dropLast = [] := by
      rw [← List.length_eq_zero_iff, List.length_dropLast, hone]
    refine ⟨front, last, rfl, hdirNames last (by simp), hdrop, ?_⟩
    rw [hsteps, hdrop, List.append_nil, Relative.steps_below]
  refine ⟨literal, relative, hreplacement, hliteral, fun output => ⟨?_, ?_, ?_⟩⟩
  · constructor
    · intro harrives
      have hpos := List.length_pos_iff.2 hinside
      by_contra hshort
      obtain ⟨front, last, -, hlast, hdrop, hway⟩ := hout (by omega)
      rw [hdrop, List.append_nil, hway] at harrives
      exact not_arrives_out output hlast htargetNames harrives
    · intro hlong
      have hdrop : inside.dropLast ≠ [] := by
        rw [← List.length_pos_iff, List.length_dropLast]
        omega
      rw [hsteps, Relative.steps_append dir target hdrop]
      exact arrives_steps output inside.dropLast htargetNames
  · intro hone
    obtain ⟨front, last, rfl, hlast, hdrop, hway⟩ := hout hone
    rw [hdrop, List.append_nil, hway, Place.walk_out output hlast htargetNames,
      List.getLast?_concat]
    exact out_and_back_iff
  · intro d final hfollow
    exact Disk.follow_eq_walk hfollow

/-- A file of a module that is not in its topmost directory. -/
def innerFile : Situation :=
  .ofPath ComponentTree.withSubtypes "core" "mod/assign/classes/view.php"
    ⟨true, false, true, true⟩ "@/mod/assign/locallib.php"

theorem internal_reference_arrives_iff_classes :
    ∃ decision, Decision.decide innerFile = .ok decision
      ∧ decision.action = .relativeDirectory
      ∧ ∃ literal relative : Text, decision.replacement = some ("__DIR__ . " ++ literal)
        ∧ readLiteral? literal = some ('/' :: relative, [])
        ∧ Arrives ["home", "out"] ["home", "out", "classes"] (stepsOf relative)
          ["locallib.php"] := by
  have haction : (Decision.decide innerFile).map Decision.action = .ok .relativeDirectory := by
    decide +kernel
  cases hdecide : Decision.decide innerFile with
  | error fault =>
      rw [hdecide] at haction
      cases haction
  | ok decision =>
      rw [hdecide] at haction
      have haction' := Except.ok.inj haction
      obtain ⟨-, literal, relative, hreplacement, hliteral, harrives⟩ :=
        internal_reference_arrives_iff (by decide : (["mod", "assign"] : List Text) ≠ [])
          (by decide : (["classes", "view.php"] : List Text) ≠ [])
          (by decide : (["locallib.php"] : List Text) ≠ [])
          (by decide) (by decide) (by decide) rfl (by decide) hdecide haction'
      exact ⟨decision, rfl, haction', literal, relative, hreplacement, hliteral,
        (harrives ["home", "out"]).1.2 (by decide)⟩

/-- A file in the topmost directory of a module. -/
def topFile : Situation :=
  .ofPath ComponentTree.withSubtypes "core" "mod/assign/view.php"
    ⟨true, false, true, true⟩ "@/mod/assign/locallib.php"

/-- From the copy in a directory of another name, the way goes out and does not
come back. -/
theorem output_left :
    inner "mod/assign" topFile.file = "view.php"
    ∧ (Decision.decide topFile).map Decision.replacement
      = .ok (some ("__DIR__ . '/../assign/locallib.php'" : Text))
    ∧ Place.walk ["home", "out"] (stepsOf "../assign/locallib.php")
      = [("home" : Text), ("assign" : Text), ("locallib.php" : Text)] := by
  refine ⟨by decide, by decide +kernel, by decide⟩

end Extract

end ComponentPaths
