/-
Which ids an extraction accepts.

An id is cut at its first underscore. What is before it must be a plugin type of
the tree, and what is after it is put below the directory of that type, whatever
it is. If there is such a directory on the disk, the id is accepted. So the
directory is as safe as the name and the directory of the type are: it leads out
of the root if the type is at the root, and up if one of the two does
(`accepted_dir_owned_iff`).

Whether the directory belongs to the component is for the tree to say. A path
belongs to a plugin, with nothing left, in two ways: it is marked for that
plugin, or its last segment is the name of one right below the directory of the
type (`Descent.plugin_alone`). Anything else that is accepted, such as two dots
or a path further down, belongs to someone else (`stray_ids_accepted`).
-/
import ComponentPaths.Proofs.Category.Separators
import ComponentPaths.Proofs.Component.Identity
import ComponentPaths.Proofs.Extract.Complete

namespace ComponentPaths

open Symbolic

-- ==================================================================== names

namespace PluginName

variable {type name : Text}

/-- A name that is text alone has no braces. -/
theorem not_mem_of_isName (h : (if type = "mod" then isModuleName name else isPluginName name) = true) :
    '{' ∉ name := by
  intro hmem
  cases name with
  | nil => cases hmem
  | cons c cs =>
      split at h
      · simp only [isModuleName, Bool.and_eq_true, List.all_eq_true] at h
        rcases List.mem_cons.1 hmem with rfl | hmem
        · exact absurd h.1 (by decide)
        · exact absurd (h.2 _ hmem) (by decide)
      · simp only [isPluginName, Bool.and_eq_true, List.all_eq_true] at h
        rcases List.mem_cons.1 hmem with rfl | hmem
        · exact absurd h.1.1.1 (by decide)
        · exact absurd (h.1.1.2 _ hmem) (by decide)

/-- A valid name is one segment, be it text or a placeholder. -/
theorem properSegments_of_isValid (h : isValid type name = true) :
    properSegments name = [name] := by
  by_cases hsingle : (singlePlaceholder? name).isSome = true
  · unfold properSegments
    rw [segments_of_singlePlaceholder? hsingle]
    refine List.filter_cons_of_pos ?_
    cases name with
    | nil => cases hsingle
    | cons c cs => rfl
  · have hname : '{' ∉ name := by
      unfold isValid at h
      rw [Bool.not_eq_true] at hsingle
      rw [hsingle, Bool.false_or] at h
      exact not_mem_of_isName h
    have hread := (literal_of_isValid h hname).properSegments_joinSlash
    rwa [Text.joinSlash_singleton] at hread

end PluginName

namespace ComponentTree

variable {tree node : ComponentTree} {all done left front : List Text} {type name : Text}
  {plugin subsystem : Passed}

-- ============================================================ plugins alone

/-- What was passed is a plugin with nothing left only where it is marked. -/
theorem Descent.fallback_eq_plugin (h : Descent tree all done left node plugin subsystem)
    (hne : ∀ s ∈ all, s ≠ [])
    (hanswer : fallback all plugin subsystem = ⟨.plugin type name, []⟩) :
    tree.markerAt all = some (.pluginRoot type name) := by
  cases h.plugin with
  | @root dir rest marker component split entered mark isKind names deepest =>
      obtain ⟨type', name', rfl, rfl⟩ := eq_pluginRoot isKind names
      obtain ⟨hcomponent, hrest⟩ := Owner.mk.inj hanswer
      cases hcomponent
      have hnil : rest = [] := by
        refine Text.eq_nil_of_joinSlash (fun s hs => hne s ?_) hrest
        rw [split]
        exact List.mem_append_right dir hs
      rw [split, hnil, List.append_nil]
      exact mark
  | nothing unseen =>
      cases h.subsystem with
      | nothing unseen' => cases hanswer
      | @root dir rest marker component split entered mark isKind names deepest =>
          obtain ⟨name', rfl, rfl⟩ := eq_subsystemRoot isKind names
          obtain ⟨hcomponent, -⟩ := Owner.mk.inj hanswer
          cases name' <;> cases hcomponent

theorem Descent.strayed_eq_plugin {segment : Text}
    (h : Descent tree all done left node plugin subsystem) (hne : ∀ s ∈ all, s ≠ [])
    (hanswer : strayed segment all plugin subsystem = some ⟨.plugin type name, []⟩) :
    tree.markerAt all = some (.pluginRoot type name) := by
  unfold strayed at hanswer
  split at hanswer
  · cases hanswer
  · exact h.fallback_eq_plugin hne (Option.some.inj hanswer)

/-- A name right below the directory of a type that is the one of a plugin without a
mark: the tree does not know it, it is valid, and where it is a placeholder it
stands for nothing but a name. -/
structure BareName (tree : ComponentTree) (front : List Text) (type name : Text) : Prop where
  marked : tree.markerAt front = some (.pluginTypeRoot type)
  unknown : descend? (front ++ [name]) tree = none
  valid : PluginName.isValid type name = true
  noPath : PluginName.looksLikeFullPath name = false
  noType : ∀ node, descend? front tree = some node → isAmbiguous node name = false

/-- A path belongs to a plugin with nothing left only if it is marked for the plugin
or ends with its bare name. -/
theorem Descent.plugin_alone (h : Descent tree all done left node plugin subsystem)
    (hends : Ends node left) (hne : ∀ s ∈ all, s ≠ [])
    (howner : resolveFrom all node plugin subsystem left = some ⟨.plugin type name, []⟩) :
    tree.markerAt all = some (.pluginRoot type name)
      ∨ all = done ++ [name] ∧ BareName tree done type name := by
  have hmark := markerAt_of_descend? h.here
  cases left with
  | nil =>
      rw [resolveFrom] at howner
      split at howner
      · next type' name' hmarker =>
        cases howner
        rw [h.split, List.append_nil]
        exact Or.inl (hmark.trans hmarker)
      · next name' hmarker =>
        obtain ⟨hcomponent, -⟩ := Owner.mk.inj (Option.some.inj howner)
        cases name' <;> cases hcomponent
      · exact Or.inl (h.fallback_eq_plugin hne (Option.some.inj howner))
  | cons segment rest =>
      have hchild := hends segment rest rfl
      rw [resolveFrom, hchild] at howner
      dsimp only at howner
      unfold diverge at howner
      split at howner
      · cases howner
      next hsingle =>
      split at howner
      · exact Or.inl (h.fallback_eq_plugin hne (Option.some.inj howner))
      · next type' hmarker =>
        split at howner
        · next hvalid =>
          split at howner
          · cases howner
          next hpath =>
          -- the segment is the name, and nothing comes after it
          obtain ⟨hcomponent, hrest⟩ := Owner.mk.inj (Option.some.inj howner)
          cases hcomponent
          have hnil : rest = [] := by
            refine Text.eq_nil_of_joinSlash (fun s hs => hne s ?_) hrest
            rw [h.split]
            exact List.mem_append_right _ (List.mem_cons_of_mem _ hs)
          subst hnil
          refine Or.inr ⟨h.split, hmark.trans hmarker, ?_, hvalid, by simpa using hpath, ?_⟩
          · rw [descend?_append, h.here]
            simp [descend?, hchild]
          · intro node' hnode'
            rw [h.here] at hnode'
            cases hnode'
            simpa using hsingle
        · exact Or.inl (h.strayed_eq_plugin hne howner)
      · exact Or.inl (h.strayed_eq_plugin hne howner)

/-- A bare name below the directory of its type is the plugin. -/
theorem BareName.resolveFrom_eq (h : BareName tree front type name) (all : List Text) :
    resolveFrom all tree none none (front ++ [name]) = some ⟨.plugin type name, []⟩ := by
  obtain ⟨node, hnode, hmarker⟩ := Option.bind_eq_some_iff.1 h.marked
  have hchild : node.child? name = none := by
    have hunknown := h.unknown
    rw [descend?_append, hnode] at hunknown
    simpa [descend?] using hunknown
  obtain ⟨plugin, subsystem, heq⟩ := exists_resolveFrom_append all hnode none none [name]
  rw [heq, resolveFrom, hchild]
  unfold diverge
  simp only [h.noType node hnode, hmarker, h.valid, h.noPath, Bool.false_eq_true, if_false, if_true,
    Text.joinSlash_nil]

/-- What is put below the directory of a type belongs to the plugin of that type and
name if it is marked for the plugin or is its bare name. -/
theorem resolve?_below_type_iff (hfront : Literal front)
    (hmark : tree.markerAt front = some (.pluginTypeRoot type)) (hbrace : '{' ∉ Text.joinSlash front) :
    tree.resolve? ('@' :: '/' :: (Text.joinSlash front ++ '/' :: name))
        = some ⟨.plugin type name, []⟩
      ↔ tree.markerAt (front ++ properSegments name) = some (.pluginRoot type name)
        ∨ BareName tree front type name := by
  have hall : properSegments (Text.joinSlash front ++ '/' :: name)
      = front ++ properSegments name := by
    rw [properSegments_append_slash (closed_of_not_mem hbrace), hfront.properSegments_joinSlash]
  have hproper : ∀ s ∈ front ++ properSegments name, s ≠ [] := by
    rw [← hall]
    intro s hs
    exact (mem_properSegments.1 hs).2
  by_cases hnil : front ++ properSegments name = []
  · -- then it is the topmost directory, which belongs to no plugin
    obtain ⟨rfl, hname⟩ := List.append_eq_nil_iff.1 hnil
    refine iff_of_false (fun howner => ?_) ?_
    · have hroot : tree.resolve? ('@' :: '/' :: (Text.joinSlash [] ++ '/' :: name))
          = some Owner.root := by
        unfold resolve?
        rw [show stripRoot? ('@' :: '/' :: (Text.joinSlash [] ++ '/' :: name))
          = some (Text.joinSlash [] ++ '/' :: name) from rfl]
        dsimp only
        rw [hall, hnil]
      rw [hroot] at howner
      cases howner
    · rintro (hplugin | hbare)
      · rw [hname, List.append_nil, hmark] at hplugin
        cases hplugin
      · rw [PluginName.properSegments_of_isValid hbare.valid] at hname
        cases hname
  rw [resolve?_eq_resolveFrom (by rwa [hall]), hall]
  constructor
  · intro howner
    obtain ⟨done, left, node, plugin, subsystem, hdescent, hends, hsame⟩ :=
      (Descent.start tree (front ++ properSegments name)).stops
    rw [hsame] at howner
    rcases hdescent.plugin_alone hends hproper howner with hplugin | ⟨hlast, hbare⟩
    · exact Or.inl hplugin
    · refine Or.inr ?_
      have hone := PluginName.properSegments_of_isValid hbare.valid
      rw [hone] at hlast
      obtain ⟨rfl, -⟩ := List.append_inj' hlast rfl
      exact hbare
  · rintro (hplugin | hbare)
    · exact resolveFrom_marked hplugin rfl
    · rw [PluginName.properSegments_of_isValid hbare.valid]
      exact hbare.resolveFrom_eq _

-- ============================================================== directories

/-- What is put below a directory starts with a separator only if the directory is
the topmost one. -/
theorem head?_below_iff (hfront : Literal front) (name : Text) :
    (Text.joinSlash front ++ '/' :: name).head? = some '/' ↔ Text.joinSlash front = [] := by
  cases front with
  | nil => exact ⟨fun _ => rfl, fun _ => rfl⟩
  | cons s rest =>
      obtain ⟨hne, hslash, -⟩ := hfront s List.mem_cons_self
      obtain ⟨c, s', rfl⟩ := List.exists_cons_of_ne_nil hne
      have hhead : ∃ more, Text.joinSlash ((c :: s') :: rest) = c :: more := by
        by_cases hrest : rest = []
        · subst hrest
          exact ⟨s', Text.joinSlash_singleton _⟩
        · exact ⟨_, Text.joinSlash_cons _ hrest⟩
      obtain ⟨more, hmore⟩ := hhead
      rw [hmore, List.cons_append, List.head?_cons, Option.some_inj]
      refine iff_of_false (fun hc => hslash ?_) (List.cons_ne_nil _ _)
      rw [hc]
      exact List.mem_cons_self

end ComponentTree

namespace Extract

open ComponentTree

/-- An accepted id of a plugin is its type, an underscore and its name, and the
directory is the name below the directory of the type. It starts at the top of
the disk just if the type is at the root, has a step up just if the type's
directory or the name has one, and belongs to the plugin just if it is marked
for it or the name is bare. -/
theorem accepted_dir_owned_iff {tree : ComponentTree} {d : Disk} {root id type name dir : Text}
    (htree : tree.Built) (hbraces : ∀ entry ∈ tree.markedDirs, '{' ∉ entry.1)
    (h : sourceDir tree d root id = .ok (.plugin type name, dir)) :
    id = type ++ '_' :: name ∧ d.isDir (Path.join root dir) = true
    ∧ ∃ typeDir, tree.pluginTypeDir? type = some typeDir ∧ dir = typeDir ++ '/' :: name
      ∧ (dir.head? = some '/' ↔ typeDir = [])
      ∧ ((".." : Text) ∈ Text.splitSlash dir
        ↔ (".." : Text) ∈ Text.splitSlash typeDir ∨ (".." : Text) ∈ Text.splitSlash name)
      ∧ (tree.resolve? ('@' :: '/' :: dir) = some ⟨.plugin type name, []⟩
        ↔ tree.markerAt (properSegments typeDir ++ properSegments name)
            = some (.pluginRoot type name)
          ∨ BareName tree (properSegments typeDir) type name) := by
  obtain ⟨hid, hdir, hthere⟩ := sourceDir_eq_ok h
  obtain ⟨typeDir, htype, rfl⟩ := Option.map_eq_some_iff.1 hdir
  have hmem := mem_of_dirOf? htype
  have hbrace := hbraces _ hmem
  obtain ⟨front, hmark, rfl⟩ := exists_dir_of_mem_markedDirs htree.cut.ordered hmem
  have hfront := htree.cut.literal hmark hbrace
  refine ⟨Component.ofId?_plugin hid, hthere, _, htype, rfl, head?_below_iff hfront name, ?_, ?_⟩
  · rw [Text.splitSlash_append_slash, List.mem_append]
  · rw [hfront.properSegments_joinSlash]
    exact resolve?_below_type_iff hfront hmark hbrace

/-- The directories of a module and of a folder in it, and one at the top of the disk
that is not in the codebase. -/
def strayDisk : Disk where
  entries :=
    [(["code"], .directory), (["code", "mod"], .directory), (["code", "mod", "quiz"], .directory),
      (["code", "mod", "quiz", "lang"], .directory), (["tidy"], .directory)]
  here := []
  temporarySuffix := []

theorem accepted_dir_owned_iff_quiz :
    sourceDir withSubtypes strayDisk "code" "mod_quiz"
        = .ok (.plugin "mod" "quiz", "mod/quiz")
    ∧ (∀ entry ∈ withSubtypes.markedDirs, '{' ∉ entry.1)
    ∧ ¬("mod/quiz" : Text).head? = some '/'
    ∧ (".." : Text) ∉ Text.splitSlash "mod/quiz"
    ∧ withSubtypes.resolve? "@/mod/quiz" = some ⟨.plugin "mod" "quiz", []⟩ := by
  have hbraces : ∀ entry ∈ withSubtypes.markedDirs, '{' ∉ entry.1 := by decide +kernel
  have hsource : sourceDir withSubtypes strayDisk "code" "mod_quiz"
      = .ok (.plugin "mod" "quiz", "mod/quiz") := by
    rfl
  obtain ⟨-, -, typeDir, htype, -, hhead, hup, howner⟩ :=
    accepted_dir_owned_iff (.ofManifests _ _) hbraces hsource
  obtain rfl : ("mod" : Text) = typeDir := Option.some.inj
    ((by decide +kernel : withSubtypes.pluginTypeDir? "mod" = some ("mod" : Text)).symm.trans htype)
  refine ⟨hsource, hbraces, mt hhead.1 (by decide), mt hup.1 (by decide), howner.2 (Or.inr ?_)⟩
  exact
    { marked := by decide +kernel
      unknown := by rfl
      valid := by decide
      noPath := by decide
      noType := fun node _ => isAmbiguous_of_not_mem (by decide) }

/-- Ids that are accepted though no plugin has them: two dots, a folder of a module,
and, where plugins are at the root of the codebase, a directory outside of it. -/
theorem stray_ids_accepted :
    sourceDir withSubtypes strayDisk "code" "mod_.." = .ok (.plugin "mod" "..", "mod/..")
    ∧ withSubtypes.resolve? "@/mod/.." = some ⟨.root, "mod/.."⟩
    ∧ sourceDir withSubtypes strayDisk "code" "mod_quiz/lang"
        = .ok (.plugin "mod" "quiz/lang", "mod/quiz/lang")
    ∧ withSubtypes.resolve? "@/mod/quiz/lang" = some ⟨.plugin "mod" "quiz", "lang"⟩
    ∧ sourceDir topmostType strayDisk "code" "local_tidy"
        = .ok (.plugin "local" "tidy", "/tidy")
    ∧ strayDisk.isDir "code/tidy" = false := by
  refine ⟨by rfl, by decide +kernel, by rfl, by decide +kernel, by rfl, by decide +kernel⟩

end Extract

end ComponentPaths
