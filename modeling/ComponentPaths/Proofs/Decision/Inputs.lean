/-
Replacements keep the inputs of what they replace.

A variable that the contribution of an expression holds in a placeholder is
held by the path, since normal forms keep placeholders. From there on a
replacement may leave out parts of the path in two places only, and neither
has a placeholder in it where directories are known:

- the directory that a component has as its root, except for the last
  segment of a plugin that is not marked, and that one is the name in the
  id of the component (`Owned.holds`);
- the directories that a relative path shares with the file
  (`Relative.holds_path`).

All else is turned into code, with the code of every placeholder as it was.
-/
import ComponentPaths.Proofs.Decision.Rewrites
import ComponentPaths.Proofs.PathExpression.Inputs

namespace ComponentPaths

open Symbolic

-- =================================================================== calls

namespace Call

variable {api relative type name code id part : Text} {component : Component}

theorem toExpression?_of_fragment {path : Text} (h : fragment path = .ok code) :
    toExpression? path = some code := by
  unfold fragment at h
  split at h
  · next hcode =>
    cases h
    exact hcode
  · cases h

/-- What the name of a plugin holds is in its id. -/
theorem infix_componentId (h : Holds part name)
    (hid : componentId (.plugin type name) = .ok id) : part <:+: id := by
  have hdynamic : (Component.plugin type name).hasDynamicName = true := by
    simpa [Component.hasDynamicName] using h.mem_brace
  simp only [componentId, hdynamic, if_true] at hid
  cases hfragment : fragment name with
  | error fault =>
      rw [hfragment] at hid
      cases hid
  | ok code =>
      rw [hfragment] at hid
      cases hid
      have hin := h.infix_of_toExpression? (toExpression?_of_fragment hfragment)
      exact hin.trans (List.suffix_append _ _).isInfix

/-- What the path inside of a component holds, or the name of a plugin, is in
the call. -/
theorem infix_componentPath (hcode : componentPath api component relative = .ok code)
    (h : Holds part relative
      ∨ ∃ type name, component = .plugin type name ∧ Holds part name) : part <:+: code := by
  unfold componentPath at hcode
  split at hcode
  · cases hcode
  · next id hid =>
    split at hcode
    · next hempty =>
      cases hcode
      rcases h with h | ⟨type, name, rfl, h⟩
      · rw [List.isEmpty_iff.1 hempty] at h
        exact absurd h.mem_brace (by simp)
      · exact (infix_componentId h hid).trans ⟨api ++ "::get_component_path(", ")", by simp⟩
    · cases hfragment : fragment relative with
      | error fault =>
          rw [hfragment] at hcode
          cases hcode
      | ok inner =>
          rw [hfragment] at hcode
          cases hcode
          rcases h with h | ⟨type, name, rfl, h⟩
          · have hin := h.infix_of_toExpression? (toExpression?_of_fragment hfragment)
            exact hin.trans ⟨api ++ "::get_component_path(" ++ id ++ ", ", ")", by simp⟩
          · exact (infix_componentId h hid).trans
              ⟨api ++ "::get_component_path(", ", " ++ inner ++ ")", by simp⟩

theorem infix_corePath {suffix : Text} (h : Holds part suffix)
    (hcode : corePath api suffix = .ok code) : part <:+: code := by
  unfold corePath at hcode
  cases hfragment : fragment suffix with
  | error fault =>
      rw [hfragment] at hcode
      cases hcode
  | ok inner =>
      rw [hfragment] at hcode
      cases hcode
      have hin := h.infix_of_toExpression? (toExpression?_of_fragment hfragment)
      exact hin.trans ⟨api ++ "::get_core_path(", ")", rfl⟩

end Call

-- ================================================================== owners

/-- What a path holds is held below its root. -/
theorem Symbolic.Holds.stripRoot? {part path below : Text} (h : Holds part path)
    (hbelow : Symbolic.stripRoot? path = some below) : Holds part below := by
  unfold Symbolic.stripRoot? at hbelow
  split at hbelow
  · cases hbelow
    exact (h.tail (by decide)).tail (by decide)
  · cases hbelow
    exact h.tail (by decide)
  · cases hbelow

theorem Symbolic.Tidy.properSegments {t : Text} (h : Tidy t) :
    ∀ s ∈ properSegments t, Tidy s :=
  fun s hs => h.segments s (mem_properSegments.1 hs).1

namespace ComponentTree

variable {tree : ComponentTree} {part : Text} {all : List Text} {owner : Owner}

/-- The directories of markers are known: none of their names has a
placeholder. -/
def Known (dir : List Text) (_ : Marker) : Prop :=
  ∀ s ∈ dir, '{' ∉ s

/-- The root of a component has no placeholder, unless it is the name of a
plugin. -/
theorem HasRoot.holds (htree : Marked Known tree) {dir : List Text} {component : Component}
    (h : HasRoot tree dir component) {s : Text} (hs : s ∈ dir) (hholds : Holds part s) :
    ∃ type, component = .plugin type s := by
  have hknown : ∀ {d m}, tree.markerAt d = some m → s ∉ d := fun hmark hmem =>
    htree.marks _ _ hmark s hmem hholds.mem_brace
  cases h with
  | root => cases hs
  | subsystem hmark => exact absurd hs (hknown hmark)
  | plugin hmark => exact absurd hs (hknown hmark)
  | @ofType dir type name hmark =>
      rcases List.mem_append.1 hs with hs | hs
      · exact absurd hs (hknown hmark)
      · rw [List.mem_singleton.1 hs]
        exact ⟨type, rfl⟩

/-- What the segments of a path hold is held by the path inside of the owner,
or by the owner's name. -/
theorem Owned.holds (htree : Marked Known tree) (h : Owned tree all owner)
    (htidy : ∀ s ∈ all, Tidy s) {s : Text} (hs : s ∈ all) (hholds : Holds part s) :
    Holds part owner.relativePath
      ∨ ∃ type name, owner.component = .plugin type name ∧ Holds part name := by
  obtain ⟨dir, rest, rfl, hrest, hroot⟩ := h
  rcases List.mem_append.1 hs with hs | hs
  · obtain ⟨type, hcomponent⟩ := hroot.holds htree hs hholds
    exact Or.inr ⟨type, s, hcomponent, hholds⟩
  · rw [hrest]
    exact Or.inl (holds_joinSlash (fun u hu => htidy u (List.mem_append_right _ hu)) hs hholds)

end ComponentTree

-- =========================================================== relative paths

/-- The directories of a file have the characters of its path. -/
theorem Relative.mem_of_mem_dirSegments {file s : Text} {c : Char}
    (hs : s ∈ Relative.dirSegments file) (hc : c ∈ s) : c ∈ file := by
  have hsplit : s ∈ Text.splitSlash (Text.parentDir file) := (List.mem_filter.1 hs).1
  have hjoin : Text.joinSlash (Text.splitSlash (Text.parentDir file)) = Text.parentDir file :=
    List.intercalate_splitOn '/'
  have hin : s <:+: Text.joinSlash (Text.splitSlash (Text.parentDir file)) :=
    Text.infix_join hsplit
  rw [hjoin] at hin
  exact Text.parentDir_subset file (hin.subset hc)

/-- What the target of a relative path holds is not shared with the directory
of a file that is known. -/
theorem Relative.holds_path {file part : Text} (hfile : '{' ∉ file) {target : List Text}
    (htidy : ∀ s ∈ target, Tidy s) {s : Text} (hs : s ∈ target) (hholds : Holds part s) :
    Holds part (Relative.path (Relative.dirSegments file) target) := by
  unfold Relative.path Relative.steps
  dsimp only
  generalize hn : min (commonLength (dirSegments file) target)
    ((dirSegments file).length - 1) = n
  have hmem : s ∈ target.drop n := by
    rw [← List.take_append_drop n target] at hs
    refine (List.mem_append.1 hs).resolve_left fun hshared => hfile ?_
    rw [← take_commonLength (dirSegments file) target (by omega)] at hshared
    exact mem_of_mem_dirSegments (List.mem_of_mem_take hshared) hholds.mem_brace
  refine holds_joinSlash (fun u hu => ?_) (List.mem_append_right _ hmem) hholds
  rcases List.mem_append.1 hu with hu | hu
  · rw [(List.mem_replicate.1 hu).2]
    exact tidy_of_not_mem (by decide)
  · exact htidy u (List.mem_of_mem_drop hu)

theorem Relative.infix_expression? {relative code part : Text} (h : Holds part relative)
    (hcode : Relative.expression? relative = some code) : part <:+: code := by
  unfold Relative.expression? at hcode
  obtain ⟨tail, htail, rfl⟩ := Option.map_eq_some_iff.1 hcode
  have hslash : Holds part ('/' :: relative) := .plain (by decide) h
  exact (hslash.infix_of_toExpression? htail).trans (List.suffix_append _ _).isInfix

-- ============================================================ replacements

namespace Decision

variable {tree : ComponentTree} {api file path part code : Text} {flags : PathFlags}
  {action : Action}

/-- The suffix for the core keeps what the path inside of it holds. -/
theorem holds_coreSuffix {owner : Owner} (h : Holds part owner.relativePath) :
    Holds part (coreSuffix owner) := by
  unfold coreSuffix
  split
  · split
    · next hempty =>
      rw [List.isEmpty_iff.1 hempty] at h
      exact absurd h.mem_brace (by simp)
    · exact .after (tidy_of_not_mem (by decide)) h
  · exact h

/-- Every replacement has what the placeholders of its path hold. -/
theorem Rewrite.keeps (htree : tree.Marked ComponentTree.Known) (hfile : '{' ∉ file)
    (hpath : Holds part path)
    (h : Rewrite (.ofPath tree api file flags path) action code) : part <:+: code := by
  have howned : ∀ {owner}, tree.resolve? path = some owner →
      Holds part owner.relativePath
        ∨ ∃ type name, owner.component = .plugin type name ∧ Holds part name := by
    intro owner howner
    obtain ⟨below, hbelow, howned⟩ := ComponentTree.resolve?_owned howner
    have hholds := hpath.stripRoot? hbelow
    obtain ⟨s, hs, hsegment⟩ := hholds.exists_segment
    exact howned.holds htree hholds.tidy.properSegments (hsegment.mem_properSegments hs) hsegment
  cases h with
  | config hcategory _ =>
      have hconfig : path = "@/config.php" := Category.shaped_of_ofPath? hcategory
      rw [hconfig] at hpath
      exact absurd hpath.mem_brace (by decide)
  | within hbelow hcode =>
      have hholds := hpath.stripRoot? hbelow
      obtain ⟨s, hs, hsegment⟩ := hholds.exists_segment
      have hrelative := Relative.holds_path hfile hholds.tidy.properSegments
        (hsegment.mem_properSegments hs) hsegment
      exact Relative.infix_expression? hrelative hcode
  | dynamicRoot hcategory =>
      have hroot : Category.isRootAndPlaceholder path = true :=
        Category.shaped_of_ofPath? hcategory
      obtain ⟨inner, hinner⟩ := Option.isSome_iff_exists.1 hroot
      obtain ⟨below, hbelow, hsingle⟩ := Option.bind_eq_some_iff.1 hinner
      have hin := (hpath.stripRoot? hbelow).infix_of_singlePlaceholder? hsingle
      simp only [Situation.ofPath, hinner, Option.getD_some, Call.rootRelative]
      exact hin.trans ⟨api ++ "::get_path_from_relative(", ")", rfl⟩
  | component htarget hcode _ => exact Call.infix_componentPath hcode (howned htarget)
  | core htarget hcore hcode =>
      rcases howned htarget with hholds | ⟨type, name, hplugin, -⟩
      · exact Call.infix_corePath (holds_coreSuffix hholds) hcode
      · rw [hplugin] at hcore
        cases hcore

end Decision

-- ================================================================ findings

namespace Finding

variable {a : Arena} {tree : ComponentTree} {api file : Text} {findings : List Finding}

/-- A finding is about a node that the walk over the file reports. -/
def IsAbout (a : Arena) (file : Text) (f : Finding) (id : Nat) : Prop :=
  ∃ symbolic, (id, symbolic) ∈ PathExpression.paths a file
    ∧ f.expression = PathExpression.ofNode a id symbolic

theorem exists_isAbout (h : analyze tree api a file = .ok findings) {f : Finding}
    (hf : f ∈ findings) : ∃ id, f.IsAbout a file id := by
  have hmem : f.expression ∈ PathExpression.find a file := by
    rw [← (map_expression h).1]
    exact List.mem_map.2 ⟨f, hf, rfl⟩
  unfold PathExpression.find at hmem
  obtain ⟨⟨id, symbolic⟩, hpath, hexpression⟩ := List.mem_map.1 hmem
  exact ⟨id, symbolic, hpath, hexpression.symm⟩

/-- Replacements have every variable that the expression they replace keeps.
Every finding is about some expression of the file. -/
theorem replacement_keeps_inputs (hb : a.Built) (hfile : '{' ∉ file)
    (hordered : tree.Ordered) (hdirs : ∀ entry ∈ tree.marked, ∀ s ∈ entry.1, '{' ∉ s)
    (h : analyze tree api a file = .ok findings) :
    ∀ f ∈ findings, (∃ id, f.IsAbout a file id)
      ∧ ∀ id, f.IsAbout a file id → (∀ y ∈ a.postorder id, Contribution.Neat a file y) →
        ∀ x name, a.kind x = .variableRef (some name) → name ≠ Mark.configVariable →
          Contribution.Kept a file x name id →
          ∀ code, f.decision.replacement = some code → '$' :: name <:+: code := by
  intro f hf
  refine ⟨exists_isAbout h hf, ?_⟩
  rintro id ⟨symbolic, hpath, hexpression⟩ hneat x name - hname hkept code hcode
  have hl := hb.linked
  -- the path of the expression holds the variable
  have hholds : Symbolic.Holds ('$' :: name) symbolic := by
    rw [PathExpression.paths_eq hl] at hpath
    obtain ⟨id', -, heq⟩ := List.mem_map.1 hpath
    cases heq
    refine (Contribution.holds_total hl hfile hname hkept hneat).normalize fun hmem => ?_
    exact hfile (Text.parentDir_subset file hmem)
  have htree : tree.Marked ComponentTree.Known :=
    ⟨hordered, fun dir marker hmark =>
      hdirs (dir, marker) ((ComponentTree.mem_marked hordered).2 hmark)⟩
  have hdecide := (ofExpression_eq_ok ((map_expression h).2 f hf)).2
  rcases Decision.decide_cases hdecide with ⟨-, hkeep⟩ | ⟨code', hcode', hrewrite⟩
  · rw [hkeep] at hcode
    cases hcode
  · rw [hcode'] at hcode
    cases hcode
    refine hrewrite.keeps htree hfile ?_
    rw [hexpression]
    exact hholds

/-- The tree of a codebase with activity modules and one subsystem. -/
def moduleTree : ComponentTree :=
  .ofManifests ⟨[("mod", "mod")], [("admin", some "admin")]⟩ []

/-- An include that computes the name of a plugin. -/
def computedInclude : Arena :=
  (Arena.empty (Bytes.ofText "require $CFG->dirroot.'/mod/'.strtolower($x).'/lib.php';"))
    |>.push none "" .expressionStatement ⟨0, 56⟩ 1 1
    |>.push (some 0) "expr" (.inclusion .require) ⟨0, 55⟩ 1 1
    |>.push (some 1) "expr" .concat ⟨8, 55⟩ 1 1
    |>.push (some 2) "left" .concat ⟨8, 44⟩ 1 1
    |>.push (some 3) "left" .concat ⟨8, 29⟩ 1 1
    |>.push (some 4) "left" (.propertyFetch (some "dirroot")) ⟨8, 21⟩ 1 1
    |>.push (some 5) "var" (.variableRef (some "CFG")) ⟨8, 12⟩ 1 1
    |>.push (some 4) "right" (.stringLiteral "/mod/") ⟨22, 29⟩ 1 1
    |>.push (some 3) "right" (.funcCall (some "strtolower")) ⟨30, 44⟩ 1 1
    |>.push (some 8) "args" .arg ⟨41, 43⟩ 1 1
    |>.push (some 9) "value" (.variableRef (some "x")) ⟨41, 43⟩ 1 1
    |>.push (some 2) "right" (.stringLiteral "/lib.php") ⟨45, 55⟩ 1 1

theorem built_computedInclude : computedInclude.Built :=
  (Arena.Built.empty _).top
    |>.under (by decide) |>.under (by decide) |>.under (by decide) |>.under (by decide)
    |>.under (by decide) |>.under (by decide) |>.under (by decide) |>.under (by decide)
    |>.under (by decide) |>.under (by decide) |>.under (by decide)

/-- The variable is in an argument of a call that is a part of the path. -/
theorem kept_computedInclude :
    Contribution.Kept computedInclude "mod/quiz/view.php" 10 "x" 2 := by
  have hrule : Contribution.fragments computedInclude
      (Contribution.total computedInclude "mod/quiz/view.php") 8
      = some (Contribution.callFragments computedInclude 8 [.name "strtolower"]) := rfl
  have hcall : Contribution.Kept computedInclude "mod/quiz/view.php" 10 "x" 8 := by
    refine .code hrule
      (List.mem_cons_of_mem _ (List.mem_cons_of_mem _ List.mem_cons_self)) (c := 9) ?_ ?_
    · exact List.mem_singleton.2 rfl
    · exact .self rfl
  refine .part rfl (c := 3) (by decide) (.part rfl (c := 8) (by decide) hcall)

theorem replacement_keeps_inputs_computedInclude :
    ∃ f code, (analyze moduleTree "core" computedInclude "mod/quiz/view.php") = .ok [f]
      ∧ f.IsAbout computedInclude "mod/quiz/view.php" 2
      ∧ f.decision.replacement = some code ∧ ("$x" : Text) <:+: code := by
  have hcodes : (analyze moduleTree "core" computedInclude "mod/quiz/view.php").toOption.map
      (fun findings => findings.map fun f => f.decision.replacement)
      = some [some ("core::get_component_path('mod_' . strtolower($x), 'lib.php')" : Text)] := by
    decide +kernel
  cases h : analyze moduleTree "core" computedInclude "mod/quiz/view.php" with
  | error fault =>
      rw [h] at hcodes
      cases hcodes
  | ok findings =>
      rw [h] at hcodes
      obtain ⟨f, rfl, hcode⟩ := List.map_eq_singleton_iff.1 (Option.some.inj hcodes)
      have hordered : moduleTree.Ordered := ComponentTree.ordered_ofManifests _ _
      have hkeeps := replacement_keeps_inputs built_computedInclude (by decide +kernel) hordered
        (by decide +kernel) h f (List.mem_singleton.2 rfl)
      have hpaths : (PathExpression.paths computedInclude "mod/quiz/view.php").map Prod.fst
          = [2] := by
        decide +kernel
      have habout : f.IsAbout computedInclude "mod/quiz/view.php" 2 := by
        obtain ⟨id, symbolic, hmem, hexpression⟩ := hkeeps.1
        have hid : id ∈ [2] := by
          rw [← hpaths]
          exact List.mem_map.2 ⟨(id, symbolic), hmem, rfl⟩
        rw [List.mem_singleton.1 hid] at hmem hexpression
        exact ⟨symbolic, hmem, hexpression⟩
      refine ⟨f, _, rfl, habout, hcode, ?_⟩
      exact hkeeps.2 2 habout (by decide +kernel) 10 "x" rfl (by decide) kept_computedInclude _
        hcode

/-- An include with a default for a part of its path. -/
def coalescedInclude : Arena :=
  (Arena.empty (Bytes.ofText "require $CFG->dirroot.'/admin/'.($x ?? 'a');"))
    |>.push none "" .expressionStatement ⟨0, 44⟩ 1 1
    |>.push (some 0) "expr" (.inclusion .require) ⟨0, 43⟩ 1 1
    |>.push (some 1) "expr" .concat ⟨8, 43⟩ 1 1
    |>.push (some 2) "left" .concat ⟨8, 31⟩ 1 1
    |>.push (some 3) "left" (.propertyFetch (some "dirroot")) ⟨8, 21⟩ 1 1
    |>.push (some 4) "var" (.variableRef (some "CFG")) ⟨8, 12⟩ 1 1
    |>.push (some 3) "right" (.stringLiteral "/admin/") ⟨22, 31⟩ 1 1
    |>.push (some 2) "right" (.other "Expr_BinaryOp_Coalesce") ⟨33, 42⟩ 1 1
    |>.push (some 7) "left" (.variableRef (some "x")) ⟨33, 35⟩ 1 1
    |>.push (some 7) "right" (.stringLiteral "a") ⟨39, 42⟩ 1 1

/-- An operator without a rule contributes nothing, and a variable in it is
lost. -/
theorem input_lost_in_coalescedInclude :
    coalescedInclude.kind 8 = .variableRef (some "x") ∧ 8 ∈ coalescedInclude.postorder 2
      ∧ (PathExpression.paths coalescedInclude "mod/quiz/view.php").map Prod.fst = [2]
      ∧ (analyze moduleTree "core" coalescedInclude "mod/quiz/view.php").toOption.map
          (fun findings => findings.map fun f => f.decision.replacement)
        = some [some ("core::get_component_path('core_admin')" : Text)]
      ∧ ¬("$x" : Text) <:+: "core::get_component_path('core_admin')" := by
  refine ⟨rfl, by decide +kernel, by decide +kernel, by decide +kernel, fun hin => ?_⟩
  have hmem : '$' ∈ ("core::get_component_path('core_admin')" : Text) :=
    hin.subset (by decide)
  exact absurd hmem (by decide)

end Finding

end ComponentPaths
