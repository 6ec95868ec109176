/-
Plugins below the directories of their types.

A plugin has no mark unless it declares sub-plugins. It is known by its place:
a valid name right below the directory of its type. So a literal path belongs
to a plugin in one of two ways. It passes the root of one that is marked, or
it leaves the tree right below a type, by a valid name (`Absorbed`). In all
other cases the descent ends elsewhere, and the answer is a part of the core
(`exists_resolveFrom_absorbed`).

Hence the directory of a type absorbs what is below it as far as it knows
nothing of it. A manifest may give a directory down there to a subsystem, and
then the tree goes on where the plugin would be (`subsystem_in_type_dir`).

Where only plugins are marked below the types, none of this can happen, and
the directory of a component belongs to the component
(`resolve?_componentDir?`).
-/
import ComponentPaths.Proofs.Decision.SameFile
import ComponentPaths.Proofs.Symbolic.Balanced

namespace ComponentPaths

open Symbolic

-- ========================================================= literal segments

theorem Symbolic.singlePlaceholder?_of_not_mem {t : Text} (h : '{' ∉ t) :
    singlePlaceholder? t = none := by
  cases hsingle : singlePlaceholder? t with
  | none => rfl
  | some code => exact absurd (brace_of_singlePlaceholder? hsingle) h

/-- The parts between separators have none. -/
theorem Text.not_mem_of_mem_splitSlash {s t : Text} (h : s ∈ splitSlash t) : '/' ∉ s := by
  unfold splitSlash at h
  induction t generalizing s with
  | nil =>
      rw [List.splitOn_nil, List.mem_singleton] at h
      rw [h]
      exact List.not_mem_nil
  | cons c t ih =>
      rw [List.splitOn_cons_eq_if_modifyHead] at h
      split at h
      · rcases List.mem_cons.1 h with rfl | h
        · exact List.not_mem_nil
        · exact ih h
      · next hc =>
        cases hparts : List.splitOn '/' t with
        | nil => exact absurd hparts (List.splitOn_ne_nil _ _)
        | cons first rest =>
            rw [hparts] at h ih
            rcases List.mem_cons.1 h with rfl | h
            · intro hmem
              rcases List.mem_cons.1 hmem with rfl | hmem
              · exact hc rfl
              · exact ih List.mem_cons_self hmem
            · exact ih (List.mem_cons_of_mem _ h)

namespace Symbolic

variable {parts front back : List Text} {t : Text}

/-- Segments that are text alone. -/
def Literal (parts : List Text) : Prop :=
  ∀ s ∈ parts, s ≠ [] ∧ '/' ∉ s ∧ '{' ∉ s

theorem Literal.append (hf : Literal front) (hb : Literal back) : Literal (front ++ back) :=
  List.forall_mem_append.2 ⟨hf, hb⟩

/-- Literal parts are segments. -/
theorem Literal.segmented (h : Literal parts) : Segmented parts := by
  refine ⟨fun s hs => ?_, ?_⟩
  · obtain ⟨-, hslash, hbrace⟩ := h s hs
    rw [segments_eq_splitSlash hbrace]
    exact List.splitOn_eq_singleton hslash
  · refine List.pairwise_of_forall_mem_list fun s hs _ _ => ?_
    exact closed_of_not_mem (h s hs).2.2

/-- Literal segments are read back from the path they join to. -/
theorem Literal.properSegments_joinSlash (h : Literal parts) :
    properSegments (Text.joinSlash parts) = parts :=
  Symbolic.properSegments_joinSlash h.segmented fun s hs => (h s hs).1

/-- The segments of a path without braces are literal. -/
theorem literal_properSegments (h : '{' ∉ t) : Literal (properSegments t) := by
  intro s hs
  obtain ⟨hmem, hne⟩ := mem_properSegments.1 hs
  refine ⟨hne, ?_, fun hbrace => h (mem_of_mem_properSegments hs hbrace)⟩
  rw [segments_eq_splitSlash h] at hmem
  exact Text.not_mem_of_mem_splitSlash hmem

end Symbolic

namespace PluginName

variable {type name : Text}

theorem looksLikeFullPath_of_not_mem (h : '{' ∉ name) : looksLikeFullPath name = false := by
  unfold looksLikeFullPath
  rw [singlePlaceholder?_of_not_mem h]
  rfl

/-- A literal name is one segment. -/
theorem literal_of_isValid (h : isValid type name = true) (hname : '{' ∉ name) :
    Literal [name] := by
  rw [Literal, List.forall_mem_singleton]
  unfold isValid at h
  rw [singlePlaceholder?_of_not_mem hname, Option.isSome_none, Bool.false_or] at h
  cases name with
  | nil =>
      split at h
      · cases h
      · cases h
  | cons c cs =>
      refine ⟨List.cons_ne_nil c cs, fun hmem => ?_, hname⟩
      split at h
      · simp only [isModuleName, Bool.and_eq_true, List.all_eq_true] at h
        rcases List.mem_cons.1 hmem with rfl | hmem
        · exact absurd h.1 (by decide)
        · exact absurd (h.2 _ hmem) (by decide)
      · simp only [isPluginName, Bool.and_eq_true, List.all_eq_true] at h
        rcases List.mem_cons.1 hmem with rfl | hmem
        · exact absurd h.1.1.1 (by decide)
        · exact absurd (h.1.1.2 _ hmem) (by decide)

end PluginName

namespace ComponentTree

-- ======================================================= marked directories

/-- Directories are marked by their segments. -/
def Cut (dir : List Text) (_ : Marker) : Prop :=
  ∀ s ∈ dir, s ≠ [] ∧ '/' ∉ s

/-- A directory is marked at the segments it is cut into. -/
theorem cut_splitDir (dir : Text) (marker : Marker) : Cut (splitDir dir) marker := by
  intro s hs
  obtain ⟨hmem, hkept⟩ := List.mem_filter.1 hs
  refine ⟨?_, Text.not_mem_of_mem_splitSlash hmem⟩
  rintro rfl
  cases hkept

theorem cut_ofManifests (primary : Manifest) (plugins : List PluginManifest) :
    Marked Cut (ofManifests primary plugins) :=
  marked_ofManifests ⟨cut_splitDir _ _, fun _ _ _ => cut_splitDir _ _,
    fun _ _ => cut_splitDir _ _, fun _ _ _ => cut_splitDir _ _⟩ plugins

variable {tree node below : ComponentTree} {all done left front dir way : List Text}
  {segment name type : Text} {rest : List Text} {plugin subsystem : Passed} {marker : Marker}

/-- A marked directory without braces is literal. -/
theorem Marked.literal (h : Marked Cut tree) (hmark : tree.markerAt dir = some marker)
    (hbrace : '{' ∉ Text.joinSlash dir) : Literal dir := by
  intro s hs
  obtain ⟨hne, hslash⟩ := h.marks dir marker hmark s hs
  exact ⟨hne, hslash, fun hmem => hbrace ((Text.infix_join hs).subset hmem)⟩

-- ============================================================ literal ways

/-- A way down goes through the root of a plugin. -/
def PassesPlugin (tree : ComponentTree) (way : List Text) : Prop :=
  ∃ p, p <+: way ∧ p ≠ [] ∧ RootAt tree Marker.isPluginRoot p

/-- A way leaves the tree right below a plugin type, by a valid name. -/
def LeavesByName (tree : ComponentTree) (way : List Text) : Prop :=
  ∃ front name type, front ++ [name] <+: way
    ∧ tree.markerAt front = some (.pluginTypeRoot type)
    ∧ descend? (front ++ [name]) tree = none ∧ PluginName.isValid type name = true

/-- A literal way belongs to a plugin. -/
def Absorbed (tree : ComponentTree) (way : List Text) : Prop :=
  ¬RootAt tree Marker.isSubsystemRoot way ∧ (PassesPlugin tree way ∨ LeavesByName tree way)

/-- Who gets to a node gets to those on the way. -/
theorem isSome_descend?_of_prefix {p : List Text} (hp : p <+: way)
    (h : (descend? way tree).isSome = true) : (descend? p tree).isSome = true := by
  obtain ⟨rest, rfl⟩ := hp
  rw [descend?_append] at h
  cases hd : descend? p tree with
  | none =>
      rw [hd] at h
      cases h
  | some node => rfl

/-- A segment is a name for plugins of the type of a node. -/
def Names (node : ComponentTree) (segment : Text) : Prop :=
  ∃ type, node.marker? = some (.pluginTypeRoot type) ∧ PluginName.isValid type segment = true

theorem isAmbiguous_of_not_mem (h : '{' ∉ segment) : isAmbiguous node segment = false := by
  unfold isAmbiguous
  rw [singlePlaceholder?_of_not_mem h]
  simp

/-- Under a type, a valid name is the name of a plugin. -/
theorem diverge_of_isValid (h : '{' ∉ segment)
    (hmarker : node.marker? = some (.pluginTypeRoot type))
    (hvalid : PluginName.isValid type segment = true) :
    diverge node segment rest all plugin subsystem
      = some ⟨.plugin type segment, Text.joinSlash rest⟩ := by
  unfold diverge
  simp only [isAmbiguous_of_not_mem h, hmarker, hvalid,
    PluginName.looksLikeFullPath_of_not_mem h, Bool.false_eq_true, if_false, if_true]

/-- A literal segment that is no name leaves the answer to what was passed. -/
theorem diverge_of_not_names (h : '{' ∉ segment) (hnot : ¬Names node segment) :
    diverge node segment rest all plugin subsystem = some (fallback all plugin subsystem) := by
  have hstrayed : strayed segment all plugin subsystem = some (fallback all plugin subsystem) := by
    unfold strayed
    rw [PluginName.looksLikeFullPath_of_not_mem h, Bool.and_false]
    rfl
  unfold diverge
  rw [isAmbiguous_of_not_mem h, if_neg Bool.false_ne_true]
  split
  · rfl
  · next type hmarker =>
    rw [if_neg fun hvalid => hnot ⟨type, hmarker, hvalid⟩]
    exact hstrayed
  · exact hstrayed

/-- What was passed answers with a plugin if there was one. -/
theorem Descent.fallback_isCore (h : Descent tree all done left node plugin subsystem)
    (hends : Ends node left) :
    (fallback all plugin subsystem).component.isCore = false ↔ PassesPlugin tree all := by
  cases h.plugin with
  | @root dir rest marker component split entered mark isKind names deepest =>
      obtain ⟨type, name, rfl, rfl⟩ := eq_pluginRoot isKind names
      refine iff_of_true rfl ⟨dir, ?_, entered, rootAt_of_markerAt mark isKind⟩
      rw [split]
      exact List.prefix_append dir rest
  | nothing unseen =>
      have hnone : ¬PassesPlugin tree all := by
        rintro ⟨p, hp, hne, hroot⟩
        exact h.noneBelow hends unseen p hp (List.length_pos_iff.2 hne) hroot
      refine iff_of_false ?_ hnone
      cases h.subsystem with
      | nothing unseen' => simp [fallback, Component.isCore]
      | @root dir rest marker component split entered mark isKind names deepest =>
          obtain ⟨name, rfl, rfl⟩ := eq_subsystemRoot isKind names
          cases name <;> simp [fallback, Component.isCore]

/-- A way leaves the tree by a name where the descent on it stops. -/
theorem Descent.leavesByName_iff (h : Descent tree all done left node plugin subsystem)
    (hends : Ends node left) :
    LeavesByName tree all ↔ ∃ name rest, left = name :: rest ∧ Names node name := by
  constructor
  · rintro ⟨front, name, type, hp, hmark, hout, hvalid⟩
    have hin : (descend? front tree).isSome = true := by
      obtain ⟨node', hnode', -⟩ := Option.bind_eq_some_iff.1 hmark
      rw [hnode']
      rfl
    have hfront := h.prefix_done hends ((List.prefix_append front [name]).trans hp) hin
    -- one segment more is out of the tree, so the descent got no further
    have hdone : done <+: front := by
      have hdone : done <+: all := by
        rw [h.split]
        exact List.prefix_append done left
      rcases List.prefix_or_prefix_of_prefix hp hdone with hlong | hshort
      · have hsome := isSome_descend?_of_prefix hlong (by rw [h.here]; rfl)
        rw [hout] at hsome
        cases hsome
      · rcases List.prefix_concat_iff.1 hshort with heq | hshort
        · have hhere := h.here
          rw [heq, hout] at hhere
          cases hhere
        · exact hshort
    obtain rfl : front = done := hfront.eq_of_length_le hdone.length_le
    rw [h.split, List.prefix_append_right_inj] at hp
    obtain ⟨rest, hrest⟩ := hp
    have hmarker := (markerAt_of_descend? h.here).symm.trans hmark
    exact ⟨name, rest, hrest.symm, type, hmarker, hvalid⟩
  · rintro ⟨name, rest, rfl, type, hmarker, hvalid⟩
    refine ⟨done, name, type, ?_, (markerAt_of_descend? h.here).trans hmarker, ?_, hvalid⟩
    · rw [h.split, List.prefix_append_right_inj]
      exact ⟨rest, rfl⟩
    · rw [descend?_append, h.here]
      simp [descend?, hends name rest rfl]

/-- Where what was passed answers, nothing but a plugin on the way makes the
owner one. -/
theorem Descent.absorbed_fallback (h : Descent tree all done left node plugin subsystem)
    (hends : Ends node left) (hopen : ¬RootAt tree Marker.isSubsystemRoot all)
    (hstays : ¬LeavesByName tree all) :
    (fallback all plugin subsystem).component.isCore = false ↔ Absorbed tree all := by
  rw [h.fallback_isCore hends]
  exact ⟨fun hpasses => ⟨hopen, Or.inl hpasses⟩,
    fun habsorbed => habsorbed.2.resolve_right hstays⟩

/-- A path that ends in the tree belongs to a plugin just if it is absorbed. -/
theorem Descent.absorbed_at_end (h : Descent tree all done [] node plugin subsystem)
    (hne : all ≠ []) :
    ∃ owner, resolveFrom all node plugin subsystem [] = some owner
      ∧ (owner.component.isCore = false ↔ Absorbed tree all) := by
  have hends : Ends node [] := fun _ _ hleft => by cases hleft
  have hmark : tree.markerAt all = node.marker? := by
    rw [h.split, List.append_nil]
    exact markerAt_of_descend? h.here
  rw [resolveFrom]
  split
  · next type name hmarker =>
    have hroot := hmark.trans hmarker
    refine ⟨_, rfl, iff_of_true rfl ⟨not_rootAt_of_markerAt hroot rfl, Or.inl ?_⟩⟩
    exact ⟨all, List.prefix_rfl, hne, rootAt_of_markerAt hroot rfl⟩
  · next name hmarker =>
    refine ⟨_, rfl, iff_of_false ?_ fun habsorbed => ?_⟩
    · cases name <;> simp [Component.isCore]
    · exact habsorbed.1 (rootAt_of_markerAt (hmark.trans hmarker) rfl)
  · next hplugin hsubsystem =>
    refine ⟨_, rfl, h.absorbed_fallback hends (fun hroot => ?_) fun hleaves => ?_⟩
    · obtain ⟨marker, hmarker, hkind⟩ := (Option.any_eq_true _ _).1 hroot
      rw [hmark] at hmarker
      cases marker with
      | subsystemRoot name => exact hsubsystem name hmarker
      | _ => cases hkind
    · obtain ⟨name, rest, hleft, -⟩ := (h.leavesByName_iff hends).1 hleaves
      cases hleft

/-- So does a path that leaves the tree. -/
theorem Descent.absorbed_astray
    (h : Descent tree all done (segment :: rest) node plugin subsystem)
    (hends : Ends node (segment :: rest)) (hliteral : '{' ∉ segment) :
    ∃ owner, resolveFrom all node plugin subsystem (segment :: rest) = some owner
      ∧ (owner.component.isCore = false ↔ Absorbed tree all) := by
  -- the whole path is not in the tree
  have hopen : ¬RootAt tree Marker.isSubsystemRoot all := by
    intro hroot
    have hlong := (h.prefix_done hends List.prefix_rfl hroot.isSome).length_le
    rw [h.split, List.length_append, List.length_cons] at hlong
    omega
  have hleaves := h.leavesByName_iff hends
  rw [resolveFrom, hends segment rest rfl]
  dsimp only
  by_cases hname : Names node segment
  · have hbyName := hleaves.2 ⟨segment, rest, rfl, hname⟩
    obtain ⟨type, hmarker, hvalid⟩ := hname
    rw [diverge_of_isValid hliteral hmarker hvalid]
    exact ⟨_, rfl, iff_of_true rfl ⟨hopen, Or.inr hbyName⟩⟩
  · rw [diverge_of_not_names hliteral hname]
    refine ⟨_, rfl, h.absorbed_fallback hends hopen fun hleaves' => ?_⟩
    obtain ⟨name, rest', hleft, hname'⟩ := hleaves.1 hleaves'
    cases hleft
    exact hname hname'

/-- A literal way has an owner, and a plugin just if it is absorbed. -/
theorem exists_resolveFrom_absorbed (tree : ComponentTree) (hne : all ≠ [])
    (hliteral : Literal all) :
    ∃ owner, resolveFrom all tree none none all = some owner
      ∧ (owner.component.isCore = false ↔ Absorbed tree all) := by
  obtain ⟨done, left, node, plugin, subsystem, hdescent, hends, hsame⟩ :=
    (Descent.start tree all).stops
  rw [hsame]
  cases left with
  | nil => exact hdescent.absorbed_at_end hne
  | cons segment rest =>
      refine hdescent.absorbed_astray hends (hliteral segment ?_).2.2
      rw [hdescent.split]
      exact List.mem_append_right _ List.mem_cons_self

/-- A path with segments is followed from the root of the tree. -/
theorem resolve?_eq_resolveFrom {below : Text} (h : properSegments below ≠ []) :
    tree.resolve? ('@' :: '/' :: below)
      = resolveFrom (properSegments below) tree none none (properSegments below) := by
  have hstrip : stripRoot? ('@' :: '/' :: below) = some below := rfl
  unfold resolve?
  rw [hstrip]
  dsimp only
  split
  · next hnil => exact absurd hnil h
  · rfl

/-- What is left below a directory is followed from there. -/
theorem exists_resolveFrom_append (all : List Text) (h : descend? front node = some below)
    (plugin subsystem : Passed) (left : List Text) :
    ∃ plugin' subsystem', resolveFrom all node plugin subsystem (front ++ left)
      = resolveFrom all below plugin' subsystem' left := by
  induction front generalizing node plugin subsystem with
  | nil =>
      cases h
      exact ⟨plugin, subsystem, rfl⟩
  | cons name front ih =>
      obtain ⟨child, hchild, hbelow⟩ := Option.bind_eq_some_iff.1 h
      rw [List.cons_append, resolveFrom_cons hchild]
      exact ih hbelow _ _

/-- A name without a node below the directory of a type is a plugin. -/
theorem resolveFrom_typeDir (hmark : tree.markerAt dir = some (.pluginTypeRoot type))
    (hout : descend? (dir ++ [name]) tree = none) (hname : '{' ∉ name)
    (hvalid : PluginName.isValid type name = true) :
    resolveFrom all tree none none (dir ++ name :: rest)
      = some ⟨.plugin type name, Text.joinSlash rest⟩ := by
  obtain ⟨node, hnode, hmarker⟩ := Option.bind_eq_some_iff.1 hmark
  have hchild : node.child? name = none := by
    rw [descend?_append, hnode] at hout
    simpa [descend?] using hout
  obtain ⟨plugin, subsystem, heq⟩ :=
    exists_resolveFrom_append all hnode none none (name :: rest)
  rw [heq, resolveFrom, hchild]
  exact diverge_of_isValid hname hmarker hvalid

-- ================================================================= results

/-- A directory that is listed is marked. -/
theorem exists_dir_of_mem_markedDirs (h : tree.Ordered) {text : Text}
    (hmem : (text, marker) ∈ tree.markedDirs) :
    ∃ dir, tree.markerAt dir = some marker ∧ text = Text.joinSlash dir := by
  obtain ⟨⟨dir, marker'⟩, hmarked, heq⟩ := List.mem_map.1 hmem
  cases heq
  exact ⟨dir, (mem_marked h).1 hmarked, rfl⟩

/-- The segments of a path below a directory, by a name. -/
theorem properSegments_below (rest : Text) (hdir : Literal dir)
    (hbrace : '{' ∉ Text.joinSlash dir) (hname : Literal [name]) :
    properSegments (Text.joinSlash dir ++ '/' :: name ++ '/' :: rest)
      = dir ++ name :: properSegments rest := by
  have hone : properSegments name = [name] := by
    have hread := hname.properSegments_joinSlash
    rwa [Text.joinSlash_singleton] at hread
  have hclosed : Closed (Text.joinSlash dir ++ '/' :: name) := by
    refine closed_of_not_mem fun hmem => ?_
    rcases List.mem_append.1 hmem with hmem | hmem
    · exact hbrace hmem
    · rcases List.mem_cons.1 hmem with heq | hmem
      · cases heq
      · exact (hname name (List.mem_singleton.2 rfl)).2.2 hmem
  rw [properSegments_append_slash hclosed,
    properSegments_append_slash (closed_of_not_mem hbrace), hdir.properSegments_joinSlash, hone,
    List.append_assoc, List.singleton_append]

/-- A literal path below the directory of a plugin type, by a valid name, has an
owner. It is the plugin of that name where the tree does not know the name,
and some plugin just if the path is absorbed. -/
theorem typeDir_absorbs_iff {primary : Manifest} {plugins : List PluginManifest}
    {dir type : Text}
    (htype : (dir, .pluginTypeRoot type) ∈ (ofManifests primary plugins).markedDirs)
    (hdir : '{' ∉ dir) (name rest : Text) (hname : '{' ∉ name)
    (hvalid : PluginName.isValid type name = true) (hrest : '{' ∉ rest) :
    ∃ owner, (ofManifests primary plugins).resolve?
        ('@' :: '/' :: (dir ++ '/' :: name ++ '/' :: rest)) = some owner
      ∧ (descend? (properSegments dir ++ [name]) (ofManifests primary plugins) = none →
        owner = ⟨.plugin type name, Text.joinSlash (properSegments rest)⟩)
      ∧ ((∃ type' name', owner.component = .plugin type' name')
        ↔ Absorbed (ofManifests primary plugins)
          (properSegments dir ++ name :: properSegments rest)) := by
  have hcut := cut_ofManifests primary plugins
  obtain ⟨path, hmark, rfl⟩ := exists_dir_of_mem_markedDirs hcut.ordered htype
  have hpath := hcut.literal hmark hdir
  have hlast := PluginName.literal_of_isValid hvalid hname
  have hall := properSegments_below rest hpath hdir hlast
  have hne : path ++ name :: properSegments rest ≠ [] := by simp
  obtain ⟨owner, howner, hiff⟩ := exists_resolveFrom_absorbed (ofManifests primary plugins) hne
    (hpath.append (hlast.append (literal_properSegments hrest)))
  rw [hpath.properSegments_joinSlash, resolve?_eq_resolveFrom (by rwa [hall]), hall]
  refine ⟨owner, howner, fun hout => ?_, ?_⟩
  · rw [resolveFrom_typeDir hmark hout hname hvalid] at howner
    exact (Option.some.inj howner).symm
  · rw [← hiff]
    cases owner.component <;> simp [Component.isCore]

instance (tree : ComponentTree) (kind : Marker → Bool) (dir : List Text) :
    Decidable (RootAt tree kind dir) :=
  inferInstanceAs (Decidable (_ = true))

theorem typeDir_absorbs_iff_withSubtypes :
    Absorbed withSubtypes ["mod", "assign", "feedback", "a-b", "lib.php"]
    ∧ (∃ owner, withSubtypes.resolve? "@/mod/assign/feedback/a-b/lib.php" = some owner
      ∧ ∃ type name, owner.component = .plugin type name)
    ∧ withSubtypes.resolve? "@/mod/quiz/lib.php" = some ⟨.plugin "mod" "quiz", "lib.php"⟩ := by
  have htype : (("mod" : Text), Marker.pluginTypeRoot "mod") ∈ withSubtypes.markedDirs := by
    decide +kernel
  have habsorbed : Absorbed withSubtypes ["mod", "assign", "feedback", "a-b", "lib.php"] := by
    refine ⟨by decide +kernel, Or.inl ⟨["mod", "assign"], by decide, by decide, ?_⟩⟩
    decide +kernel
  obtain ⟨owner, howner, -, hiff⟩ :=
    typeDir_absorbs_iff htype (by decide) "assign" "feedback/a-b/lib.php" (by decide)
      (by decide) (by decide)
  obtain ⟨owner', howner', hquiz, -⟩ :=
    typeDir_absorbs_iff htype (by decide) "quiz" "lib.php" (by decide) (by decide) (by decide)
  refine ⟨habsorbed, ⟨owner, howner, hiff.2 habsorbed⟩, ?_⟩
  rw [← show owner' = ⟨.plugin "mod" "quiz", "lib.php"⟩ from hquiz (by decide +kernel)]
  exact howner'

/-- A subsystem inside the directory of a plugin type. -/
def nestedSubsystem : ComponentTree :=
  .ofManifests ⟨[("mod", "mod")], [("quiz", some "mod/quiz")]⟩ []

/-- The tree goes on where a plugin would be, and the subsystem there is the
owner. -/
theorem subsystem_in_type_dir :
    (("mod" : Text), Marker.pluginTypeRoot "mod") ∈ nestedSubsystem.markedDirs
    ∧ PluginName.isValid "mod" "quiz" = true
    ∧ nestedSubsystem.resolve? "@/mod/quiz/lib.php" = some ⟨.subsystem "quiz", "lib.php"⟩ := by
  refine ⟨by decide +kernel, by decide, by decide +kernel⟩

-- ================================================== directories of components

/-- Right below the directory of a plugin type, only plugins are in the tree. -/
def PluginsOnly (tree : ComponentTree) : Prop :=
  ∀ entry ∈ tree.marked, entry.2.isPluginType = true →
    ∀ node ∈ descend? entry.1 tree, ∀ child ∈ node.children,
      child.2.marker?.any Marker.isPluginRoot = true

instance (tree : ComponentTree) : Decidable (PluginsOnly tree) :=
  inferInstanceAs (Decidable (∀ _ ∈ tree.marked, _ → ∀ _ ∈ _, _))

/-- A directory with a mark of its own belongs to the component it names. -/
theorem resolveFrom_marked {component : Component} (hmark : tree.markerAt dir = some marker)
    (hc : marker.component? = some component) :
    resolveFrom all tree none none dir = some ⟨component, []⟩ := by
  obtain ⟨node, hnode, hmarker⟩ := Option.bind_eq_some_iff.1 hmark
  obtain ⟨plugin, subsystem, heq⟩ := exists_resolveFrom_append all hnode none none []
  rw [List.append_nil] at heq
  rw [heq, resolveFrom, hmarker]
  cases marker with
  | subsystemRoot name => cases name <;> cases hc <;> rfl
  | pluginTypeRoot type => cases hc
  | pluginRoot type name =>
      cases hc
      rfl

/-- The mark right below a type is the one of the plugin of that name. -/
theorem Orderly.markerAt_child (h : Orderly tree) (hordered : tree.Ordered)
    (honly : PluginsOnly tree) (hmark : tree.markerAt dir = some (.pluginTypeRoot type))
    (hin : (descend? (dir ++ [name]) tree).isSome = true) :
    tree.markerAt (dir ++ [name]) = some (.pluginRoot type name) := by
  obtain ⟨node, hnode, -⟩ := Option.bind_eq_some_iff.1 hmark
  obtain ⟨child, hchild⟩ := Option.isSome_iff_exists.1 hin
  have hmem : (name, child) ∈ node.children := by
    rw [descend?_append, hnode, Option.bind_some] at hchild
    obtain ⟨child', hlookup, heq⟩ := Option.bind_eq_some_iff.1 hchild
    cases heq
    obtain ⟨before, after, heq, -⟩ := List.lookup_eq_some_iff.1 hlookup
    rw [heq]
    exact List.mem_append_right _ List.mem_cons_self
  have hplugin := honly _ ((mem_marked hordered).2 hmark) rfl node hnode _ hmem
  obtain ⟨marker, hmarker, hkind⟩ := (Option.any_eq_true _ _).1 hplugin
  have hroot := (markerAt_of_descend? hchild).trans hmarker
  cases marker with
  | pluginRoot type' name' =>
      obtain ⟨typeDir, hdir, htypeDir⟩ := h.plugins type' name' _ ((mem_marked hordered).2 hroot)
      obtain ⟨rfl, hname⟩ := List.append_inj' hdir rfl
      cases hname
      have htype := hmark.symm.trans ((mem_marked hordered).1 htypeDir)
      cases htype
      exact hroot
  | _ => cases hkind

theorem mem_of_dirOf? {d : Text} (h : tree.dirOf? marker = some d) :
    (d, marker) ∈ tree.markedDirs := by
  unfold dirOf? at h
  obtain ⟨⟨d', marker'⟩, hfind, rfl⟩ := Option.map_eq_some_iff.1 h
  have hmarker : marker' = marker := by simpa using List.find?_some hfind
  rw [← hmarker]
  exact List.mem_of_find?_eq_some hfind

/-- The directory of a plugin belongs to the plugin, -/
theorem resolve?_pluginDir (hcut : Marked Cut tree) (horderly : Orderly tree)
    (honly : PluginsOnly tree) (hmark : tree.markerAt dir = some (.pluginTypeRoot type))
    (hdir : Literal dir) (hname : '{' ∉ name)
    (hvalid : PluginName.isValid type name = true) :
    ∃ d, tree.componentDir? (.plugin type name) = some d
      ∧ tree.resolve? ('@' :: '/' :: d) = some ⟨.plugin type name, []⟩ := by
  have hliteral := hdir.append (PluginName.literal_of_isValid hvalid hname)
  obtain ⟨d, hd, hproper⟩ := horderly.componentDir?_plugin ((mem_marked hcut.ordered).2 hmark)
    hliteral.segmented fun s hs => (hliteral s hs).1
  refine ⟨d, hd, ?_⟩
  rw [resolve?_eq_resolveFrom (by simp [hproper]), hproper]
  cases hchild : descend? (dir ++ [name]) tree with
  | none => exact resolveFrom_typeDir hmark hchild hname hvalid
  | some child =>
      refine resolveFrom_marked (horderly.markerAt_child hcut.ordered honly hmark ?_) rfl
      rw [hchild]
      rfl

/-- and that of a subsystem to the subsystem. -/
theorem resolve?_subsystemDir (hdir : Literal dir) (hne : dir ≠ [])
    (hmark : tree.markerAt dir = some (.subsystemRoot (some name))) :
    tree.resolve? ('@' :: '/' :: Text.joinSlash dir) = some ⟨.subsystem name, []⟩ := by
  have hproper := hdir.properSegments_joinSlash
  rw [resolve?_eq_resolveFrom (by rwa [hproper]), hproper]
  exact resolveFrom_marked hmark rfl

/-- The directory of a component belongs to the component. -/
theorem resolve?_componentDir? {primary : Manifest} {plugins : List PluginManifest}
    (hdirs : ∀ entry ∈ (ofManifests primary plugins).markedDirs, '{' ∉ entry.1)
    (horderly : (ofManifests primary plugins).Orderly)
    (honly : (ofManifests primary plugins).PluginsOnly) :
    (∀ typeDir type name,
      (typeDir, .pluginTypeRoot type) ∈ (ofManifests primary plugins).markedDirs →
      '{' ∉ name → PluginName.isValid type name = true →
      ∃ d, (ofManifests primary plugins).componentDir? (.plugin type name) = some d
        ∧ (ofManifests primary plugins).resolve? ('@' :: '/' :: d)
          = some ⟨.plugin type name, []⟩)
    ∧ ∀ name d, (ofManifests primary plugins).componentDir? (.subsystem name) = some d →
      d ≠ [] →
      (ofManifests primary plugins).resolve? ('@' :: '/' :: d) = some ⟨.subsystem name, []⟩ := by
  have hcut := cut_ofManifests primary plugins
  constructor
  · intro typeDir type name hmem hname hvalid
    obtain ⟨dir, hmark, rfl⟩ := exists_dir_of_mem_markedDirs hcut.ordered hmem
    have hdir := hcut.literal hmark (hdirs _ hmem)
    exact resolve?_pluginDir hcut horderly honly hmark hdir hname hvalid
  · intro name d hd hne
    have hmem := mem_of_dirOf? hd
    obtain ⟨dir, hmark, rfl⟩ := exists_dir_of_mem_markedDirs hcut.ordered hmem
    refine resolve?_subsystemDir (hcut.literal hmark (hdirs _ hmem)) ?_ hmark
    rintro rfl
    exact hne rfl

theorem resolve?_componentDir?_quiz :
    (∀ entry ∈ (ofManifests Decision.quizManifest Decision.quizPlugins).markedDirs,
      '{' ∉ entry.1)
    ∧ (ofManifests Decision.quizManifest Decision.quizPlugins).Orderly
    ∧ (ofManifests Decision.quizManifest Decision.quizPlugins).PluginsOnly
    ∧ (∃ d, (ofManifests Decision.quizManifest Decision.quizPlugins).componentDir?
          (.plugin "report" "overview") = some d
        ∧ (ofManifests Decision.quizManifest Decision.quizPlugins).resolve? ('@' :: '/' :: d)
          = some ⟨.plugin "report" "overview", []⟩)
    ∧ (ofManifests Decision.quizManifest Decision.quizPlugins).resolve? "@/admin"
      = some ⟨.subsystem "admin", []⟩ := by
  have hdirs : ∀ entry ∈ (ofManifests Decision.quizManifest Decision.quizPlugins).markedDirs,
      '{' ∉ entry.1 := by
    decide +kernel
  have horderly : (ofManifests Decision.quizManifest Decision.quizPlugins).Orderly := by
    decide +kernel
  have honly : (ofManifests Decision.quizManifest Decision.quizPlugins).PluginsOnly := by
    decide +kernel
  obtain ⟨hplugin, hsubsystem⟩ := resolve?_componentDir? hdirs horderly honly
  refine ⟨hdirs, horderly, honly, ?_, hsubsystem "admin" "admin" (by decide +kernel) (by decide)⟩
  exact hplugin "mod/quiz/report" "report" "overview" (by decide +kernel) (by decide) (by decide)

end ComponentTree

end ComponentPaths
