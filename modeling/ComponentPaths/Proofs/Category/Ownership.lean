/-
Which paths have an owner.

Two modules look at the same path, one for its category and one for its owner,
and each in its own way: a category is found in the whole text, an owner by
going down the tree segment by segment. They agree. The descent gives up only at
a segment that is one placeholder (`diverge_eq_none`), whatever the tree, and a
path that is known by its category has no placeholder at all. A path that does
not start at the root has no owner, and the categories of such paths are those
that no anchored path has (`Means`).
-/
import ComponentPaths.Proofs.Category.Separators
import ComponentPaths.Proofs.Tree.Plugins

namespace ComponentPaths

open Symbolic (hasPlaceholder isAnchored isUnanchored pieces properSegments segments
  singlePlaceholder? stripRoot?)

-- ================================================================= the descent

theorem PluginName.isSome_of_looksLikeFullPath {segment : Text}
    (h : looksLikeFullPath segment = true) : (singlePlaceholder? segment).isSome = true := by
  unfold looksLikeFullPath at h
  cases hsingle : singlePlaceholder? segment with
  | none =>
      rw [hsingle] at h
      cases h
  | some code => rfl

namespace ComponentTree

variable {tree node : ComponentTree} {segment : Text} {all rest : List Text}
  {plugin subsystem : Passed}

/-- A path that leaves the tree has no owner only at a placeholder. -/
theorem strayed_eq_none (h : strayed segment all plugin subsystem = none) :
    (singlePlaceholder? segment).isSome = true := by
  unfold strayed at h
  split at h
  · next hstray =>
    exact PluginName.isSome_of_looksLikeFullPath (Bool.and_eq_true_iff.1 hstray).2
  · cases h

/-- Where the path leaves the tree, only a placeholder leaves the owner open. -/
theorem diverge_eq_none (h : diverge node segment rest all plugin subsystem = none) :
    (singlePlaceholder? segment).isSome = true := by
  unfold diverge at h
  split at h
  · next hambiguous =>
    unfold isAmbiguous at hambiguous
    exact (Bool.and_eq_true_iff.1 (Bool.and_eq_true_iff.1 hambiguous).1).2
  · split at h
    · cases h
    · split at h
      · split at h
        · next hpath => exact PluginName.isSome_of_looksLikeFullPath hpath
        · cases h
      · exact strayed_eq_none h
    · exact strayed_eq_none h

/-- A descent without an answer has come to a placeholder. -/
theorem resolveFrom_eq_none (h : resolveFrom all node plugin subsystem rest = none) :
    ∃ s ∈ rest, (singlePlaceholder? s).isSome = true := by
  induction rest generalizing node plugin subsystem with
  | nil =>
      unfold resolveFrom at h
      split at h <;> cases h
  | cons segment rest ih =>
      have hlater : (∃ s ∈ rest, (singlePlaceholder? s).isSome = true) →
          ∃ s ∈ segment :: rest, (singlePlaceholder? s).isSome = true := by
        rintro ⟨s, hs, hsome⟩
        exact ⟨s, List.mem_cons_of_mem _ hs, hsome⟩
      unfold resolveFrom at h
      split at h
      · exact ⟨segment, List.mem_cons_self, diverge_eq_none h⟩
      · split at h <;> exact hlater (ih h)

/-- A path has no owner if it is not below the root, or has a segment that is not
known. -/
theorem resolve?_eq_none {path : Text} (h : tree.resolve? path = none) :
    stripRoot? path = none ∨ ∃ below, stripRoot? path = some below
      ∧ ∃ s ∈ segments below, (singlePlaceholder? s).isSome = true := by
  unfold resolve? at h
  split at h
  · next hstrip => exact Or.inl hstrip
  · next below hstrip =>
    split at h
    · cases h
    · obtain ⟨s, hs, hsome⟩ := resolveFrom_eq_none h
      exact Or.inr ⟨below, hstrip, s, (Symbolic.mem_properSegments.1 hs).1, hsome⟩

/-- An anchored path without placeholders has an owner. -/
theorem exists_resolve? (tree : ComponentTree) {path : Text} (h : isAnchored path = true)
    (hknown : '{' ∉ path) : ∃ owner, tree.resolve? path = some owner := by
  obtain ⟨t, rfl⟩ := Category.exists_of_isAnchored h
  obtain ⟨below, hstrip, -⟩ := Symbolic.exists_stripRoot? t
  refine Option.ne_none_iff_exists'.1 fun hnone => ?_
  rcases resolve?_eq_none hnone with hstrip' | ⟨below', hstrip', s, hs, hsome⟩
  · rw [hstrip] at hstrip'
    cases hstrip'
  · have hbrace : '{' ∈ s := by
      obtain ⟨code, hcode⟩ := Option.isSome_iff_exists.1 hsome
      exact Symbolic.brace_of_singlePlaceholder? hcode
    have hbelow : below' <:+ t := Symbolic.stripRoot?_suffix hstrip'
    have hmem := hbelow.subset ((Symbolic.infix_of_mem_segments hs).subset hbrace)
    exact hknown (List.mem_cons_of_mem _ hmem)

/-- A path that does not start at the root has none. -/
theorem resolve?_of_not_anchored (tree : ComponentTree) {path : Text}
    (h : isAnchored path = false) : tree.resolve? path = none := by
  have hstrip : stripRoot? path = none := by
    unfold stripRoot?
    split
    · cases h
    · cases h
    · rfl
  unfold resolve?
  rw [hstrip]

end ComponentTree

-- ================================================================== categories

namespace Category

/-- What a category says about the start of a path and its placeholders. -/
def Means (path : Text) : Option Category → Prop
  | some .dirRoot => path = "@" ∨ path = "@/"
  | some .config => path = "@/config.php"
  | some .simpleFile => isAnchored path = true ∧ hasPlaceholder path = false
  | some .simpleDir => isAnchored path = true ∧ hasPlaceholder path = false
  | some .singleVar => (singlePlaceholder? path).isSome = true
  | some .fullDirRelative => isUnanchored path = true
  | none => isAnchored path = false
  | _ => True

/-- The category of a path below the root means what it says, -/
theorem means_ofAnchored {path : Text} (h : isAnchored path = true) :
    Means path (some (ofAnchored path)) := by
  unfold ofAnchored
  split
  · split <;> trivial
  · next hnone =>
    have hknown : hasPlaceholder path = false := by simpa using hnone
    split <;> exact ⟨h, hknown⟩

/-- and so does that of any path. -/
theorem means_ofPath? (path : Text) : Means path (ofPath? path) := by
  unfold ofPath?
  split
  · assumption
  · split
    · assumption
    · split
      · trivial
      · split
        · trivial
        · split
          · assumption
          · split
            · trivial
            · split
              · assumption
              · split
                · next hanchored => exact means_ofAnchored hanchored
                · next hanchored => simpa [Means] using hanchored

/-- The root, files and directories are known, and nothing in them is a placeholder. -/
theorem isAnchored_of_known {path : Text} {c : Category} (h : ofPath? path = some c)
    (hc : c ∈ [dirRoot, config, simpleFile, simpleDir]) :
    isAnchored path = true ∧ '{' ∉ path := by
  have hmeans := means_ofPath? path
  rw [h] at hmeans
  cases c with
  | dirRoot =>
      rcases hmeans with rfl | rfl
      · decide
      · decide
  | config =>
      rw [show path = "@/config.php" from hmeans]
      decide
  | simpleFile | simpleDir =>
      refine ⟨hmeans.1, fun hbrace => ?_⟩
      exact absurd ((Symbolic.hasPlaceholder_iff.2 hbrace).symm.trans hmeans.2) (by simp)
  | _ => simp at hc

/-- Paths of unknown start do not start at the root. -/
theorem isAnchored_of_unknown {path : Text}
    (h : ofPath? path = some .singleVar ∨ ofPath? path = some .fullDirRelative
      ∨ ofPath? path = none) : isAnchored path = false := by
  have hmeans := means_ofPath? path
  rcases h with h | h | h
  · rw [h] at hmeans
    have hsome : (singlePlaceholder? path).isSome = true := hmeans
    cases path with
    | nil => rfl
    | cons c t =>
        by_cases hc : c = '{'
        · rw [hc]
          rfl
        · rw [Symbolic.singlePlaceholder?_cons hc] at hsome
          cases hsome
  · rw [h] at hmeans
    have hopen : isUnanchored path = true := hmeans
    cases path with
    | nil => rfl
    | cons c t =>
        have hc : c = '{' := by simpa [isUnanchored] using hopen
        rw [hc]
        rfl
  · rw [h] at hmeans
    exact hmeans

end Category

theorem Symbolic.exists_pieces_of_isSome {s : Text} (h : (singlePlaceholder? s).isSome = true) :
    ∃ code, pieces s = [.placeholder code] := by
  unfold singlePlaceholder? at h
  split at h
  · next code hpieces => exact ⟨code, hpieces⟩
  · cases h

/-- The owner of a path is left open only if the path does not start at the root, or
if one of its segments is a placeholder and nothing else. So in every tree a path
that is known by its category has an owner, and one that is unknown from its start,
or has no category, has none. -/
theorem ComponentTree.undetermined_only_by_placeholder (tree : ComponentTree) (path : Text) :
    (tree.resolve? path = none → isAnchored path = false
      ∨ ∃ below, stripRoot? path = some below
        ∧ ∃ s ∈ segments below, ∃ code, pieces s = [.placeholder code])
    ∧ (∀ category, Category.ofPath? path = some category →
        category ∈ [.dirRoot, .config, .simpleFile, .simpleDir] →
        ∃ owner, tree.resolve? path = some owner)
    ∧ (Category.ofPath? path = some .singleVar ∨ Category.ofPath? path = some .fullDirRelative
        ∨ Category.ofPath? path = none → tree.resolve? path = none) := by
  refine ⟨fun hnone => ?_, fun category hpath hmem => ?_, fun hunknown => ?_⟩
  · rcases resolve?_eq_none hnone with hstrip | ⟨below, hstrip, s, hs, hsome⟩
    · refine Or.inl (Bool.eq_false_iff.2 fun hanchored => ?_)
      obtain ⟨t, rfl⟩ := Category.exists_of_isAnchored hanchored
      obtain ⟨below, hbelow, -⟩ := Symbolic.exists_stripRoot? t
      rw [hstrip] at hbelow
      cases hbelow
    · exact Or.inr ⟨below, hstrip, s, hs, Symbolic.exists_pieces_of_isSome hsome⟩
  · obtain ⟨hanchored, hbrace⟩ := Category.isAnchored_of_known hpath hmem
    exact exists_resolve? tree hanchored hbrace
  · exact resolve?_of_not_anchored tree (Category.isAnchored_of_unknown hunknown)

/-- A variable named like a file leaves the owner open, a file in the same place has
one in every tree, and a path below a variable has one in none. -/
theorem ComponentTree.undetermined_only_by_placeholder_admin :
    withSubtypes.resolve? "@/admin/\x7b$file\x7d" = none
    ∧ (∃ below, stripRoot? "@/admin/\x7b$file\x7d" = some below
      ∧ ∃ s ∈ segments below, ∃ code, pieces s = [.placeholder code])
    ∧ (∀ tree : ComponentTree, ∃ owner, tree.resolve? "@/admin/index.php" = some owner)
    ∧ ∀ tree : ComponentTree, tree.resolve? "\x7b$path\x7d/lib.php" = none := by
  have hopen : withSubtypes.resolve? "@/admin/\x7b$file\x7d" = none := by decide +kernel
  refine ⟨hopen, ?_, fun tree => ?_, fun tree => ?_⟩
  · exact ((undetermined_only_by_placeholder withSubtypes _).1 hopen).resolve_left (by decide)
  · exact (undetermined_only_by_placeholder tree _).2.1 .simpleFile (by decide) (by decide)
  · exact (undetermined_only_by_placeholder tree _).2.2 (Or.inr (Or.inl (by decide)))

end ComponentPaths
