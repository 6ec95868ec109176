/-
Replacements address the same file.

A replacement names a file in one of three ways, and each way is led back to
the path it replaces, segment by segment:

- Through a component. The owner of a path splits it at the root of its
  component (`resolve?_owned`); `componentDir?` has to find that very root
  again. It looks for a marker, so this holds where the marker is unique:
  plugin types by assumption (`Orderly`), subsystems because a manifest
  names each one once (`Placed`).
- Below the core. The core library is marked at one directory only, which
  is the directory that `coreSuffix` puts back in front.
- Relative to the file. The steps up and down, taken from the directory of
  the file, collapse to the path (`properSegments_collapseDots_path`). The
  directories above the file are gone up from one by one, so none of them
  may have the name of the anchor, which collapsing never consumes.
-/
import ComponentPaths.Proofs.Decision.Rewrites
import ComponentPaths.Proofs.Symbolic.Collapse
import Mathlib.Data.List.Nodup

namespace ComponentPaths

open Symbolic

-- ============================================================= plain files

/-- The path of a file that names it directory by directory. -/
structure PlainPath (file : Text) : Prop where
  known : '{' ∉ file
  names : ∀ s ∈ Text.splitSlash file, s ≠ [] ∧ s ≠ "." ∧ s ≠ ".."

instance (file : Text) : Decidable (PlainPath file) :=
  decidable_of_iff ('{' ∉ file ∧ ∀ s ∈ Text.splitSlash file, s ≠ [] ∧ s ≠ "." ∧ s ≠ "..")
    ⟨fun h => ⟨h.1, h.2⟩, fun h => ⟨h.known, h.names⟩⟩

namespace PlainPath

variable {file : Text}

theorem closed_parentDir (h : PlainPath file) : Closed (Text.parentDir file) :=
  closed_of_not_mem fun hmem => h.known (Text.parentDir_subset file hmem)

theorem dirSegments_eq (h : PlainPath file) :
    Relative.dirSegments file = properSegments (Text.parentDir file) := by
  unfold Relative.dirSegments properSegments
  rw [segments_eq_splitSlash fun hmem => h.known (Text.parentDir_subset file hmem)]

/-- The directories of a plain file are among its segments. -/
theorem mem_splitSlash (h : PlainPath file) (hdir : Text.parentDir file ≠ []) {s : Text}
    (hs : s ∈ segments (Text.parentDir file)) : s ∈ Text.splitSlash file := by
  obtain ⟨name, hname⟩ := (Text.parentDir_eq file).resolve_left hdir
  rw [← segments_eq_splitSlash h.known, hname, segments_append_slash h.closed_parentDir]
  exact List.mem_append_left _ hs

/-- A plain file with a directory has no empty segment on the way. -/
theorem segments_parentDir (h : PlainPath file) (hdir : Text.parentDir file ≠ []) :
    segments (Text.parentDir file) = properSegments (Text.parentDir file) := by
  unfold properSegments
  refine (List.filter_eq_self.2 fun s hs => ?_).symm
  cases s with
  | nil => exact absurd rfl (h.names [] (h.mem_splitSlash hdir hs)).1
  | cons c s => rfl

/-- Every directory of a plain file can be gone up from, unless it has the
name of the anchor. -/
theorem isPoppable_dir (h : PlainPath file) {s : Text}
    (hs : s ∈ properSegments (Text.parentDir file)) (hroot : s ≠ "@") :
    isPoppable s = true ∧ s ≠ "." := by
  have hdir : Text.parentDir file ≠ [] := fun hnil => by
    rw [hnil] at hs
    cases hs
  obtain ⟨hne, hdot, hup⟩ := h.names s (h.mem_splitSlash hdir (mem_properSegments.1 hs).1)
  have hknown : '{' ∉ s := fun hmem =>
    h.known (Text.parentDir_subset file (mem_of_mem_properSegments hs hmem))
  refine ⟨?_, hdot⟩
  simp only [isPoppable, Bool.and_eq_true, bne_iff_ne, Bool.not_eq_true',
    List.contains_eq_mem, decide_eq_false_iff_not, List.isEmpty_eq_false_iff]
  exact ⟨⟨⟨hup, hroot⟩, hknown⟩, hne⟩

end PlainPath

-- ======================================================== anchored paths

/-- A path that starts at the root and says so with a separator. -/
def Rooted (path : Text) : Prop :=
  path = "@" ∨ ∃ below, path = '@' :: '/' :: below

theorem Rooted.stripRoot? {path : Text} (h : Rooted path) (hfix : collapseDots path = path) :
    ∃ below, Symbolic.stripRoot? path = some below
      ∧ properSegments path.tail = properSegments below
      ∧ properSegments path = ("@" : Text) :: properSegments path.tail
      ∧ Settled "@" (properSegments path.tail) := by
  rcases h with rfl | ⟨below, rfl⟩
  · exact ⟨[], rfl, rfl, rfl, trivial⟩
  · have htail : properSegments ('/' :: below) = properSegments below :=
      properSegments_cons_slash below
    refine ⟨below, rfl, htail, ?_, ?_⟩
    · rw [List.tail_cons, htail, properSegments_root]
    · rw [List.tail_cons, htail]
      exact settled_of_collapseDots hfix

-- ================================================================== trees

namespace ComponentTree

/-- Every plugin type has one directory, and every marked plugin is the
directory of its name below that of its type. -/
structure Orderly (tree : ComponentTree) : Prop where
  types : ∀ type dir dir', (dir, .pluginTypeRoot type) ∈ tree.marked →
    (dir', .pluginTypeRoot type) ∈ tree.marked → dir = dir'
  plugins : ∀ type name dir, (dir, .pluginRoot type name) ∈ tree.marked →
    ∃ typeDir, dir = typeDir ++ [name] ∧ (typeDir, .pluginTypeRoot type) ∈ tree.marked

/-- Whether a marked directory that is a plugin is one of its type. -/
def isBelowType (tree : ComponentTree) : List Text × Marker → Bool
  | (dir, .pluginRoot type name) =>
    dir = dir.dropLast ++ [name] ∧ (dir.dropLast, .pluginTypeRoot type) ∈ tree.marked
  | _ => true

instance (tree : ComponentTree) : Decidable (Orderly tree) :=
  decidable_of_iff
    ((∀ x ∈ tree.marked, ∀ y ∈ tree.marked, x.2.isPluginType = true → x.2 = y.2 → x.1 = y.1)
      ∧ ∀ x ∈ tree.marked, tree.isBelowType x = true) <| by
    constructor
    · rintro ⟨htypes, hplugins⟩
      refine ⟨fun type dir dir' h h' => htypes _ h _ h' rfl rfl, fun type name dir h => ?_⟩
      exact ⟨dir.dropLast, of_decide_eq_true (hplugins _ h)⟩
    · intro h
      refine ⟨fun ⟨dir, marker⟩ hx y hy htype hxy => ?_, fun ⟨dir, marker⟩ hx => ?_⟩
      · cases marker with
        | pluginTypeRoot type =>
            rw [← Prod.eta y, ← hxy] at hy
            exact h.types type _ _ hx hy
        | _ => cases htype
      · cases marker with
        | pluginRoot type name =>
            obtain ⟨typeDir, rfl, htype⟩ := h.plugins type name dir hx
            refine decide_eq_true ?_
            rw [List.dropLast_concat]
            exact ⟨rfl, htype⟩
        | _ => rfl

/-- The core library is marked at its directory, and a subsystem at the one
its manifest gives it. -/
def Placed (primary : Manifest) (dir : List Text) (marker : Marker) : Prop :=
  (marker = .subsystemRoot none → dir = [coreLibraryDir])
  ∧ ∀ name, marker = .subsystemRoot (some name) →
    ∃ declared, (name, some declared) ∈ primary.subsystems ∧ dir = splitDir declared

theorem placed_ofManifests (primary : Manifest) (plugins : List PluginManifest) :
    Marked (Placed primary) (ofManifests primary plugins) := by
  refine marked_ofManifests ⟨?_, ?_, ?_, ?_⟩ plugins
  · exact ⟨fun _ => (by decide), fun _ h => (by cases h)⟩
  · intro name dir hmem
    refine ⟨fun h => (by cases h), fun name' h => ?_⟩
    cases h
    exact ⟨dir, hmem, rfl⟩
  · exact fun _ _ => ⟨fun h => (by cases h), fun _ h => (by cases h)⟩
  · exact fun _ _ _ => ⟨fun h => (by cases h), fun _ h => (by cases h)⟩

/-- The values a manifest lists under distinct names are determined by them. -/
theorem eq_of_mem_subsystems {primary : Manifest}
    (h : (primary.subsystems.map Prod.fst).Nodup) {name dir dir' : Text}
    (hd : (name, some dir) ∈ primary.subsystems)
    (hd' : (name, some dir') ∈ primary.subsystems) : dir = dir' := by
  have heq := List.inj_on_of_nodup_map h hd hd' rfl
  cases heq
  rfl

variable {tree : ComponentTree} {dir : List Text}

/-- The directory with a marker is found when there is only one. -/
theorem dirOf?_eq {marker : Marker} (hmem : (dir, marker) ∈ tree.marked)
    (hone : ∀ dir', (dir', marker) ∈ tree.marked → dir' = dir) :
    tree.dirOf? marker = some (Text.joinSlash dir) := by
  have hfound : (tree.markedDirs.find? fun entry => entry.2 == marker).isSome := by
    rw [List.find?_isSome]
    exact ⟨(Text.joinSlash dir, marker), List.mem_map.2 ⟨(dir, marker), hmem, rfl⟩,
      beq_self_eq_true marker⟩
  obtain ⟨entry, hentry⟩ := Option.isSome_iff_exists.1 hfound
  have hmarker : entry.2 = marker := by
    have hp := List.find?_some hentry
    simpa using hp
  obtain ⟨⟨dir', marker'⟩, hmem', rfl⟩ := List.mem_map.1 (List.mem_of_find?_eq_some hentry)
  dsimp only at hmarker
  subst hmarker
  unfold dirOf?
  rw [hentry, hone dir' hmem']
  rfl

/-- A plugin has its directory right below the one of its type. -/
theorem Orderly.componentDir?_plugin (h : Orderly tree) {type name : Text}
    (hmem : (dir, .pluginTypeRoot type) ∈ tree.marked) (hseg : Segmented (dir ++ [name]))
    (hne : ∀ s ∈ dir ++ [name], s ≠ []) :
    ∃ text, tree.componentDir? (.plugin type name) = some text
      ∧ properSegments text = dir ++ [name] := by
  have htype := dirOf?_eq hmem fun dir' hmem' => h.types type dir' dir hmem' hmem
  refine ⟨Text.joinSlash dir ++ '/' :: name, ?_, ?_⟩
  · simp only [componentDir?, pluginTypeDir?, htype, Option.map_some]
  · have hjoin := properSegments_joinSlash hseg hne
    cases dir with
    | nil =>
        rw [List.nil_append, Text.joinSlash_singleton] at hjoin
        rw [Text.joinSlash_nil, List.nil_append, properSegments_cons_slash, hjoin]
        rfl
    | cons first dir =>
        rw [Text.joinSlash_append (List.cons_ne_nil _ _) (List.cons_ne_nil _ _),
          Text.joinSlash_singleton] at hjoin
        exact hjoin

section Manifests

variable {primary : Manifest} {plugins : List PluginManifest} {component : Component}

/-- The directory of a component with an address is the one that is the root
of the component. -/
theorem HasRoot.componentDir?
    (hnames : (primary.subsystems.map Prod.fst).Nodup)
    (horderly : Orderly (ofManifests primary plugins))
    (h : HasRoot (ofManifests primary plugins) dir component)
    (haddress : component.isSynthetic = false) (hseg : Segmented dir)
    (hne : ∀ s ∈ dir, s ≠ []) :
    ∃ text, (ofManifests primary plugins).componentDir? component = some text
      ∧ properSegments text = dir := by
  have hmarked : ∀ {d m}, (d, m) ∈ (ofManifests primary plugins).marked
      ↔ (ofManifests primary plugins).markerAt d = some m :=
    mem_marked (ordered_ofManifests primary plugins)
  have hplaced := placed_ofManifests primary plugins
  cases h with
  | root => cases haddress
  | @subsystem _ name hmark =>
      cases name with
      | none => cases haddress
      | some name =>
          refine ⟨Text.joinSlash dir, ?_, properSegments_joinSlash hseg hne⟩
          refine dirOf?_eq (hmarked.2 hmark) fun dir' hdir' => ?_
          obtain ⟨d, hd, rfl⟩ := (hplaced.marks _ _ hmark).2 name rfl
          obtain ⟨d', hd', rfl⟩ := (hplaced.marks _ _ (hmarked.1 hdir')).2 name rfl
          rw [eq_of_mem_subsystems hnames hd hd']
  | plugin hmark =>
      obtain ⟨typeDir, rfl, htype⟩ := horderly.plugins _ _ _ (hmarked.2 hmark)
      exact horderly.componentDir?_plugin htype hseg hne
  | ofType hmark => exact horderly.componentDir?_plugin (hmarked.2 hmark) hseg hne

/-- The path that a target in the core has below the root. -/
theorem HasRoot.properSegments_coreSuffix {owner : Owner} {rest : List Text}
    (h : HasRoot (ofManifests primary plugins) dir owner.component)
    (hcore : owner.component.isSynthetic = true)
    (hrest : owner.relativePath = Text.joinSlash rest) (hseg : Segmented rest)
    (hne : ∀ s ∈ rest, s ≠ []) :
    properSegments (Decision.coreSuffix owner) = dir ++ rest := by
  have hjoin : properSegments owner.relativePath = rest := by
    rw [hrest]
    exact properSegments_joinSlash hseg hne
  obtain ⟨component, relativePath⟩ := owner
  dsimp only at h hcore hjoin
  cases h with
  | root => exact hjoin
  | @subsystem _ name hmark =>
      cases name with
      | some name => cases hcore
      | none =>
          have hdir := ((placed_ofManifests primary plugins).marks _ _ hmark).1 rfl
          rw [hdir, ← hjoin]
          cases relativePath with
          | nil => rfl
          | cons c relativePath =>
              exact properSegments_append_slash (t := "lib") rfl (c :: relativePath)
  | plugin hmark => cases hcore
  | ofType hmark => cases hcore

end Manifests

end ComponentTree

-- ============================================================ replacements

namespace Decision

/-- Only a component with an address has a call. -/
theorem isSynthetic_of_componentPath {api relative code : Text} {component : Component}
    (h : Call.componentPath api component relative = .ok code) :
    component.isSynthetic = false := by
  cases component with
  | root => cases h
  | coreLibrary => cases h
  | subsystem name => rfl
  | plugin type name => rfl

/-- The relative path from the directory of a file to a path below the root. -/
def relativeTo (file path : Text) : Text :=
  Relative.path (Relative.dirSegments file) (properSegments path.tail)

/-- The path that a relative path names in the directory of a file. -/
def resolved (file relative : Text) : Text :=
  collapseDots ('@' :: '/' :: Text.parentDir file ++ '/' :: relative)

/-- The code of an action names the file of a path: what the code is made of
leads back to the segments of the path. -/
def Addresses (tree : ComponentTree) (api file path code : Text) : Action → Prop
  | .keep => False
  | .componentId | .dynamicComponentId =>
    ∃ owner dir, tree.resolve? path = some owner
      ∧ tree.componentDir? owner.component = some dir
      ∧ properSegments dir ++ properSegments owner.relativePath = properSegments path.tail
      ∧ Call.componentPath api owner.component owner.relativePath = .ok code
  | .corePath =>
    ∃ owner, tree.resolve? path = some owner
      ∧ properSegments (coreSuffix owner) = properSegments path.tail
      ∧ Call.corePath api (coreSuffix owner) = .ok code
  | .relativeDirectory =>
    Relative.expression? (relativeTo file path) = some code
      ∧ (("@" : Text) ∉ Relative.dirSegments file →
        properSegments (resolved file (relativeTo file path)) = properSegments path
        ∧ (Text.parentDir file ≠ [] →
          resolved file (relativeTo file path) = Text.joinSlash (properSegments path)))
  | .rootRelative =>
    ∃ inner, (stripRoot? path).bind singlePlaceholder? = some inner
      ∧ code = Call.rootRelative api inner

section Addresses

variable {primary : Manifest} {plugins : List PluginManifest} {file path code api : Text}

theorem addresses_relative (hfile : PlainPath file)
    (hpath : properSegments path = ("@" : Text) :: properSegments path.tail)
    (hsettled : Settled "@" (properSegments path.tail))
    (hcode : Relative.expression? (relativeTo file path) = some code) (tree : ComponentTree) :
    Addresses tree api file path code .relativeDirectory := by
  refine ⟨hcode, fun hanchor => ?_⟩
  have hpop : ∀ s ∈ properSegments (Text.parentDir file), isPoppable s = true ∧ s ≠ "." := by
    intro s hs
    refine hfile.isPoppable_dir hs ?_
    rintro rfl
    rw [hfile.dirSegments_eq] at hanchor
    exact hanchor hs
  obtain ⟨hsegmented, hne, -⟩ := properSegments_joinSlash_of_sublist
    (List.Sublist.refl (properSegments path.tail))
  unfold resolved relativeTo
  rw [hfile.dirSegments_eq, hpath]
  refine ⟨Relative.properSegments_collapseDots_path hfile.closed_parentDir hsegmented hsettled
    hpop hne, fun hdir => ?_⟩
  rw [← hfile.segments_parentDir hdir] at hpop ⊢
  exact Relative.collapseDots_path hfile.closed_parentDir hsegmented hsettled hpop

theorem Rewrite.addresses {flags : PathFlags} {action : Action}
    (hnames : (primary.subsystems.map Prod.fst).Nodup)
    (horderly : (ComponentTree.ofManifests primary plugins).Orderly)
    (hfile : PlainPath file) (hrooted : Rooted path) (hfix : collapseDots path = path)
    (h : Rewrite (.ofPath (.ofManifests primary plugins) api file flags path) action code) :
    Addresses (.ofManifests primary plugins) api file path code action := by
  obtain ⟨below, hstrip, htail, hpath, hsettled⟩ := hrooted.stripRoot? hfix
  have hsplit : ∀ {owner}, (ComponentTree.ofManifests primary plugins).resolve? path
      = some owner → ComponentTree.Owned (.ofManifests primary plugins)
        (properSegments path.tail) owner := by
    intro owner howner
    obtain ⟨below', hstrip', howned⟩ := ComponentTree.resolve?_owned howner
    cases hstrip.symm.trans hstrip'
    rw [htail]
    exact howned
  cases h with
  | config hcategory hcode =>
      have hconfig : path = "@/config.php" := Category.shaped_of_ofPath? hcategory
      have htarget : properSegments path.tail = [("config.php" : Text)] := by
        rw [hconfig]
        rfl
      refine addresses_relative hfile hpath hsettled ?_ _
      unfold relativeTo
      rw [htarget]
      exact hcode
  | within hbelow hcode =>
      cases hstrip.symm.trans hbelow
      rw [← htail] at hcode
      exact addresses_relative hfile hpath hsettled hcode _
  | dynamicRoot hcategory =>
      have hroot : Category.isRootAndPlaceholder path = true :=
        Category.shaped_of_ofPath? hcategory
      obtain ⟨inner, hinner⟩ := Option.isSome_iff_exists.1 hroot
      refine ⟨inner, hinner, ?_⟩
      simp only [Situation.ofPath, hinner, Option.getD_some]
  | component htarget hcode haction =>
      obtain ⟨dir, rest, hall, hrest, hroot⟩ := hsplit htarget
      have haddress := isSynthetic_of_componentPath hcode
      obtain ⟨hsegDir, hneDir, -⟩ := properSegments_joinSlash_of_sublist
        (hall ▸ List.sublist_append_left dir rest)
      obtain ⟨-, -, hreadRest⟩ := properSegments_joinSlash_of_sublist
        (hall ▸ List.sublist_append_right dir rest)
      obtain ⟨text, htext, hdir⟩ :=
        hroot.componentDir? hnames horderly haddress hsegDir hneDir
      have haddr : properSegments text ++ properSegments (Text.joinSlash rest)
          = properSegments path.tail := by
        rw [hdir, hreadRest, hall]
      rw [← hrest] at haddr
      rcases haction with rfl | ⟨rfl, -⟩
      · exact ⟨_, text, htarget, htext, haddr, hcode⟩
      · exact ⟨_, text, htarget, htext, haddr, hcode⟩
  | core htarget hcore hcode =>
      obtain ⟨dir, rest, hall, hrest, hroot⟩ := hsplit htarget
      obtain ⟨hseg, hne, -⟩ := properSegments_joinSlash_of_sublist
        (hall ▸ List.sublist_append_right dir rest)
      refine ⟨_, htarget, ?_, hcode⟩
      rw [hroot.properSegments_coreSuffix hcore hrest hseg hne, hall]

/-- Replacements address the file that the path they replace names. -/
theorem replacement_addresses_path
    (hnames : (primary.subsystems.map Prod.fst).Nodup)
    (horderly : (ComponentTree.ofManifests primary plugins).Orderly)
    (hfile : PlainPath file) (hrooted : Rooted path) (hfix : collapseDots path = path)
    (api : Text) (flags : PathFlags) :
    ∃ d, decide (.ofPath (.ofManifests primary plugins) api file flags path) = .ok d
      ∧ ((d.action = .keep ∧ d.replacement = none)
        ∨ ∃ code, d.replacement = some code
          ∧ Addresses (.ofManifests primary plugins) api file path code d.action) := by
  have htree := ComponentTree.nameOnTheWay_ofManifests primary plugins
  obtain ⟨d, hd⟩ := decide_ofPath_ok htree api file flags path
  refine ⟨d, hd, ?_⟩
  rcases decide_cases hd with hkeep | ⟨code, hcode, hrewrite⟩
  · exact Or.inl hkeep
  · exact Or.inr ⟨code, hcode, hrewrite.addresses hnames horderly hfile hrooted hfix⟩

end Addresses

/-- A codebase with one plugin type, and a plugin that has a type of its own. -/
def quizManifest : Manifest :=
  ⟨[("mod", "mod")], [("admin", some "admin")]⟩

def quizPlugins : List PluginManifest :=
  [⟨"mod", "quiz", ⟨[("report", "report")], []⟩⟩]

theorem replacement_addresses_path_quiz :
    ∃ d, decide (.ofPath (.ofManifests quizManifest quizPlugins) "core"
        "mod/quiz/lib/view.php" ⟨true, false, true, true⟩ "@/mod/quiz/report.php") = .ok d
      ∧ d.action = .relativeDirectory
      ∧ ((d.action = .keep ∧ d.replacement = none)
        ∨ ∃ code, d.replacement = some code
          ∧ Addresses (.ofManifests quizManifest quizPlugins) "core" "mod/quiz/lib/view.php"
            "@/mod/quiz/report.php" code d.action) := by
  have hnames : (quizManifest.subsystems.map Prod.fst).Nodup := by decide
  have horderly : (ComponentTree.ofManifests quizManifest quizPlugins).Orderly := by
    decide +kernel
  have hfile : PlainPath "mod/quiz/lib/view.php" := by decide +kernel
  have hrooted : Rooted "@/mod/quiz/report.php" := Or.inr ⟨"mod/quiz/report.php", rfl⟩
  have hfix : collapseDots "@/mod/quiz/report.php" = "@/mod/quiz/report.php" := by
    decide +kernel
  obtain ⟨d, hd, haddresses⟩ := replacement_addresses_path hnames horderly hfile hrooted hfix
    "core" ⟨true, false, true, true⟩
  refine ⟨d, hd, ?_, haddresses⟩
  have haction : (decide (.ofPath (.ofManifests quizManifest quizPlugins) "core"
      "mod/quiz/lib/view.php" ⟨true, false, true, true⟩ "@/mod/quiz/report.php")).map
        Decision.action = .ok .relativeDirectory := by
    decide +kernel
  rw [hd] at haction
  exact Except.ok.inj haction

/-- A directory with the name of the anchor is not gone up from, so a
relative path that leads out of it is not followed. -/
theorem resolved_ne_of_anchor_dir :
    (quizManifest.subsystems.map Prod.fst).Nodup
      ∧ (ComponentTree.ofManifests quizManifest quizPlugins).Orderly
      ∧ PlainPath "mod/quiz/@/view.php" ∧ Rooted "@/mod/quiz/lib.php"
      ∧ collapseDots "@/mod/quiz/lib.php" = "@/mod/quiz/lib.php"
      ∧ (decide (.ofPath (.ofManifests quizManifest quizPlugins) "core" "mod/quiz/@/view.php"
          ⟨true, false, true, true⟩ "@/mod/quiz/lib.php")).map Decision.action
        = .ok .relativeDirectory
      ∧ resolved "mod/quiz/@/view.php" (relativeTo "mod/quiz/@/view.php" "@/mod/quiz/lib.php")
        = "@/mod/quiz/@/../lib.php"
      ∧ properSegments (resolved "mod/quiz/@/view.php"
          (relativeTo "mod/quiz/@/view.php" "@/mod/quiz/lib.php"))
        ≠ properSegments "@/mod/quiz/lib.php" := by
  refine ⟨by decide, by decide +kernel, by decide +kernel, Or.inr ⟨"mod/quiz/lib.php", rfl⟩,
    by decide +kernel, by decide +kernel, by decide +kernel, by decide +kernel⟩

end Decision

end ComponentPaths
