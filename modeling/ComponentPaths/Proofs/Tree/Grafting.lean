/-
What a graft puts into a tree.

A sub-plugin manifest may spell the directory of a type in many ways: with
separators around it, with empty segments and single dots in it, relative to
the plugin or from the root of the codebase. However it is spelled, its
segments are those of the plugin and then some more (`splitDir_subtypeDir`),
and so all that a graft inserts is at the plugin or below it.

A graft is a sequence of insertions (`graft_of_known`), the plugin first. The
last insertion into a directory stays, so the plugin keeps its mark unless a
type has no segment of its own: that type is put on the plugin itself, and the
owner of everything below is lost (`owner_overwritten`). This is the one thing
that can go wrong (`graft_nests_iff`).
-/
import ComponentPaths.Proofs.Tree.Insertions

namespace ComponentPaths

namespace ComponentTree

-- ================================================================ segments

/-- A separator divides the segments of a directory. -/
theorem splitDir_append_slash (t u : Text) :
    splitDir (t ++ '/' :: u) = splitDir t ++ splitDir u := by
  unfold splitDir
  rw [Text.splitSlash_append_slash, List.filter_append]

theorem splitDir_cons_slash (t : Text) : splitDir ('/' :: t) = splitDir t :=
  splitDir_append_slash [] t

theorem splitDir_concat_slash (t : Text) : splitDir (t ++ ['/']) = splitDir t := by
  rw [splitDir_append_slash]
  exact List.append_nil _

/-- Separators at the start of a directory do not count. -/
theorem splitDir_dropWhile (t : Text) : splitDir (t.dropWhile (· == '/')) = splitDir t := by
  induction t with
  | nil => rfl
  | cons c t ih =>
      by_cases hc : c = '/'
      · subst hc
        rw [splitDir_cons_slash, List.dropWhile_cons_of_pos (by simp), ih]
      · rw [List.dropWhile_cons_of_neg (by simpa using hc)]

/-- Nor do those at its end. -/
theorem splitDir_dropEndWhile (t : Text) :
    splitDir (Text.dropEndWhile (· == '/') t) = splitDir t := by
  unfold Text.dropEndWhile
  induction t using List.reverseRecOn with
  | nil => rfl
  | append_singleton t c ih =>
      rw [List.reverse_concat]
      by_cases hc : c = '/'
      · subst hc
        rw [List.dropWhile_cons_of_pos (by simp), ih, splitDir_concat_slash]
      · rw [List.dropWhile_cons_of_neg (by simpa using hc), List.reverse_cons,
          List.reverse_reverse]

theorem splitDir_trimSlashes (t : Text) : splitDir (Text.trimSlashes t) = splitDir t := by
  unfold Text.trimSlashes Text.trimWhile
  rw [splitDir_dropEndWhile, splitDir_dropWhile]

end ComponentTree

namespace TreeBuilder

open ComponentTree

-- ============================================================ declarations

/-- The directory of a plugin below the one of its type. -/
def pluginDir (typeDir name : Text) : Text :=
  Text.dropEndWhile (· == '/') typeDir ++ '/' :: name

theorem splitDir_pluginDir (typeDir name : Text) :
    splitDir (pluginDir typeDir name) = splitDir typeDir ++ splitDir name := by
  unfold pluginDir
  rw [splitDir_append_slash, splitDir_dropEndWhile]

/-- The segments that a declared directory has beyond those of its plugin. -/
def inside (pluginDir declared : Text) : List Text :=
  match Text.dropHead? (pluginDir ++ ['/']) (Text.trimSlashes declared) with
  | some rest => splitDir rest
  | none => splitDir declared

/-- However it is spelled, a declared directory starts with that of its plugin. -/
theorem splitDir_subtypeDir (pluginDir declared : Text) :
    splitDir (subtypeDir pluginDir declared)
      = splitDir pluginDir ++ inside pluginDir declared := by
  unfold subtypeDir inside
  cases hrest : Text.dropHead? (pluginDir ++ ['/']) (Text.trimSlashes declared) with
  | some rest =>
      have hspelled : Text.trimSlashes declared = pluginDir ++ '/' :: rest := by
        have heq := Text.dropHead?_eq_some_iff.1 hrest
        rw [List.append_assoc] at heq
        exact heq
      have hprefix : (pluginDir ++ ['/']).isPrefixOf (Text.trimSlashes declared) = true := by
        rw [List.isPrefixOf_iff_prefix, hspelled]
        exact ⟨rest, by simp⟩
      dsimp only
      rw [if_pos hprefix, hspelled, splitDir_append_slash]
  | none =>
      have hprefix : ¬(pluginDir ++ ['/']).isPrefixOf (Text.trimSlashes declared) = true := by
        intro h
        obtain ⟨rest, heq⟩ := List.isPrefixOf_iff_prefix.1 h
        rw [Text.dropHead?_eq_some_iff.2 heq.symm] at hrest
        cases hrest
      dsimp only
      rw [if_neg hprefix, splitDir_append_slash, splitDir_trimSlashes]

/-- The declared types with their directories. -/
def declaredDirs (pluginDir : Text) (manifest : SubpluginManifest) : List (Text × Text) :=
  manifest.types.map fun (subtype, declared) => (subtype, subtypeDir pluginDir declared)

theorem mem_declaredDirs {pluginDir : Text} {manifest : SubpluginManifest}
    {entry : Text × Text} (h : entry ∈ declaredDirs pluginDir manifest) :
    ∃ declared, (entry.1, declared) ∈ manifest.types
      ∧ splitDir entry.2 = splitDir pluginDir ++ inside pluginDir declared := by
  obtain ⟨⟨subtype, declared⟩, hmem, rfl⟩ := List.mem_map.1 h
  exact ⟨declared, hmem, splitDir_subtypeDir pluginDir declared⟩

-- ================================================================== grafts

/-- The insertions that mark types at their directories. -/
def typeMarks (grafted : List (Text × Text)) : List (Text × Marker) :=
  grafted.map fun entry => (entry.2, .pluginTypeRoot entry.1)

/-- The insertions of a graft. -/
def marks (pluginDir type name : Text) (manifest : SubpluginManifest) : List (Text × Marker) :=
  (pluginDir, .pluginRoot type name) :: typeMarks (declaredDirs pluginDir manifest)

theorem foldl_putType (builder : TreeBuilder) (grafted : List (Text × Text)) :
    grafted.foldl (fun b (subtype, dir) => b.putType subtype dir) builder
      = ⟨insertInto builder.tree (typeMarks grafted), grafted.reverse ++ builder.typeDirs⟩ := by
  induction grafted generalizing builder with
  | nil => rfl
  | cons entry grafted ih =>
      obtain ⟨subtype, dir⟩ := entry
      rw [List.foldl_cons, ih, List.reverse_cons, List.append_assoc]
      rfl

variable {builder : TreeBuilder} {type name typeDir : Text} {manifest : SubpluginManifest}

/-- A graft inserts the plugin and then its types, which come first from now on. -/
theorem graft_of_known (h : builder.typeDirs.lookup type = some typeDir) :
    builder.graft type name manifest
      = (⟨insertInto builder.tree (marks (pluginDir typeDir name) type name manifest),
          (declaredDirs (pluginDir typeDir name) manifest).reverse ++ builder.typeDirs⟩,
        declaredDirs (pluginDir typeDir name) manifest) := by
  unfold graft
  rw [h]
  show (List.foldl _ _ (declaredDirs (pluginDir typeDir name) manifest), _) = _
  rw [foldl_putType]
  rfl

/-- For an unknown type nothing happens. -/
theorem graft_of_unknown (h : builder.typeDirs.lookup type = none) :
    builder.graft type name manifest = (builder, []) := by
  unfold graft
  rw [h]

/-- The insertions of the primary manifest: the core library, then the subsystems that
have a directory, then the types. -/
def primaryMarks (primary : Manifest) : List (Text × Marker) :=
  (coreLibraryDir, .subsystemRoot none)
    :: (primary.subsystems.filterMap fun entry =>
        entry.2.map fun dir => (dir, .subsystemRoot (some entry.1)))
      ++ typeMarks primary.pluginTypes

theorem tree_ofManifest (primary : Manifest) :
    (ofManifest primary).tree = insertAll (primaryMarks primary) := by
  have hsubsystems : ∀ (entries : List (Text × Option Text)) (tree : ComponentTree),
      entries.foldl (fun tree entry => insertSubsystem tree entry.1 entry.2) tree
        = insertInto tree (entries.filterMap fun entry =>
            entry.2.map fun dir => (dir, .subsystemRoot (some entry.1))) := by
    intro entries
    induction entries with
    | nil => exact fun tree => rfl
    | cons entry entries ih =>
        obtain ⟨name, dir?⟩ := entry
        intro tree
        cases dir? with
        | none => exact ih tree
        | some dir => exact ih _
  unfold insertAll primaryMarks typeMarks
  rw [List.cons_append, insertInto, List.foldl_cons, List.foldl_append, List.foldl_map]
  exact congrArg (fun tree => List.foldl _ tree primary.pluginTypes) (hsubsystems _ _)

/-- A tree of manifests is made by insertions alone, those of the primary manifest
first. -/
theorem exists_insertAll (primary : Manifest) (plugins : List PluginManifest) :
    ∃ entries, ComponentTree.ofManifests primary plugins
      = insertAll (primaryMarks primary ++ entries) := by
  unfold ComponentTree.ofManifests
  induction plugins using List.reverseRecOn with
  | nil => exact ⟨[], by rw [List.append_nil]; exact tree_ofManifest primary⟩
  | append_singleton plugins p ih =>
      obtain ⟨entries, htree⟩ := ih
      rw [List.foldl_concat]
      generalize plugins.foldl (fun b p => (b.graft p.type p.name p.manifest).1)
        (ofManifest primary) = b at htree ⊢
      cases hknown : b.typeDirs.lookup p.type with
      | none =>
          rw [graft_of_unknown hknown]
          exact ⟨entries, htree⟩
      | some typeDir =>
          refine ⟨entries ++ marks (pluginDir typeDir p.name) p.type p.name p.manifest, ?_⟩
          rw [graft_of_known hknown, ← List.append_assoc, insertAll, insertInto_append]
          show insertInto b.tree _ = _
          rw [htree]
          rfl

/-- A type is at every directory that a type was put on. -/
theorem lastMarker?_typeMarks {grafted : List (Text × Text)} {entry : Text × Text}
    (h : entry ∈ grafted) :
    ∃ subtype ∈ grafted.map Prod.fst,
      lastMarker? (typeMarks grafted) (splitDir entry.2) = some (.pluginTypeRoot subtype) := by
  cases hlast : lastMarker? (typeMarks grafted) (splitDir entry.2) with
  | none =>
      have hmem : (entry.2, Marker.pluginTypeRoot entry.1) ∈ typeMarks grafted :=
        List.mem_map_of_mem h
      exact absurd rfl (lastMarker?_eq_none_iff.1 hlast _ hmem)
  | some marker =>
      obtain ⟨mark, hmark, -, rfl⟩ := mem_of_lastMarker? hlast
      obtain ⟨other, hother, rfl⟩ := List.mem_map.1 hmark
      exact ⟨other.1, List.mem_map_of_mem hother, rfl⟩

/-- The insertions of a graft, at a directory: a type if there is one, and else
the plugin if it is the plugin's. -/
theorem lastMarker?_marks (pluginDir type name : Text) (manifest : SubpluginManifest)
    (path : List Text) :
    lastMarker? (marks pluginDir type name manifest) path
      = (lastMarker? (typeMarks (declaredDirs pluginDir manifest)) path).or
          (if path = splitDir pluginDir then some (.pluginRoot type name) else none) := by
  rw [← lastMarker?_singleton (pluginDir, .pluginRoot type name) path]
  exact lastMarker?_append [(pluginDir, .pluginRoot type name)] _ path

/-- A plugin is the owner of its directory, and its types are below. -/
structure Nests (plugin : List Text) (type name : Text) (manifest : SubpluginManifest)
    (grown : TreeBuilder × List (Text × Text)) : Prop where
  owner : grown.1.tree.markerAt plugin = some (.pluginRoot type name)
  below : ∀ entry ∈ grown.2, ∃ segment rest, splitDir entry.2 = plugin ++ segment :: rest
  marked : ∀ entry ∈ grown.2, ∃ subtype ∈ manifest.types.map Prod.fst,
    grown.1.tree.markerAt (splitDir entry.2) = some (.pluginTypeRoot subtype)

/-- A graft gives back the declared types, each of them with a directory at the
plugin or below it that is marked with a declared type. The plugin is the owner
of its directory, and all of them are strictly below, just if each declared
directory has a segment of its own. For an unknown type nothing happens. -/
theorem graft_nests_iff {builder : TreeBuilder} (hordered : builder.tree.Ordered)
    (type name : Text) (manifest : SubpluginManifest) :
    (∀ typeDir, builder.typeDirs.lookup type = some typeDir →
      (builder.graft type name manifest).2.map Prod.fst = manifest.types.map Prod.fst
      ∧ (∀ entry ∈ (builder.graft type name manifest).2,
          splitDir typeDir ++ splitDir name <+: splitDir entry.2
          ∧ ∃ subtype ∈ manifest.types.map Prod.fst,
            (builder.graft type name manifest).1.tree.markerAt (splitDir entry.2)
              = some (.pluginTypeRoot subtype))
      ∧ (Nests (splitDir typeDir ++ splitDir name) type name manifest
            (builder.graft type name manifest)
          ↔ ∀ entry ∈ manifest.types, inside (pluginDir typeDir name) entry.2 ≠ []))
    ∧ (builder.typeDirs.lookup type = none →
      builder.graft type name manifest = (builder, [])) := by
  refine ⟨fun typeDir hknown => ?_, graft_of_unknown⟩
  rw [graft_of_known hknown, ← splitDir_pluginDir]
  generalize pluginDir typeDir name = dir
  have hnames : (declaredDirs dir manifest).map Prod.fst = manifest.types.map Prod.fst := by
    simp [declaredDirs, Function.comp_def]
  have hmarked : ∀ entry ∈ declaredDirs dir manifest,
      ∃ subtype ∈ manifest.types.map Prod.fst,
        (insertInto builder.tree (marks dir type name manifest)).markerAt (splitDir entry.2)
          = some (.pluginTypeRoot subtype) := by
    intro entry hentry
    obtain ⟨subtype, hsubtype, hlast⟩ := lastMarker?_typeMarks hentry
    refine ⟨subtype, hnames ▸ hsubtype, ?_⟩
    rw [markerAt_insertInto hordered, lastMarker?_marks, hlast]
    rfl
  refine ⟨hnames, fun entry hentry => ⟨?_, hmarked entry hentry⟩, fun hnests => ?_,
    fun hinside => ?_⟩
  · obtain ⟨declared, -, hsegments⟩ := mem_declaredDirs hentry
    exact ⟨_, hsegments.symm⟩
  · intro entry hentry hnone
    obtain ⟨segment, rest, hbelow⟩ :=
      hnests.below (entry.1, subtypeDir dir entry.2) (List.mem_map_of_mem hentry)
    rw [splitDir_subtypeDir, hnone] at hbelow
    simp at hbelow
  · have hbelow : ∀ entry ∈ declaredDirs dir manifest,
        ∃ segment rest, splitDir entry.2 = splitDir dir ++ segment :: rest := by
      intro entry hentry
      obtain ⟨declared, hmem, hsegments⟩ := mem_declaredDirs hentry
      obtain ⟨segment, rest, hcons⟩ := List.exists_cons_of_ne_nil (hinside _ hmem)
      exact ⟨segment, rest, by rw [hsegments, hcons]⟩
    refine ⟨?_, hbelow, hmarked⟩
    -- no type is put on the plugin, so the plugin is the last one there
    have hnone : lastMarker? (typeMarks (declaredDirs dir manifest)) (splitDir dir) = none := by
      rw [lastMarker?_eq_none_iff]
      intro mark hmark
      obtain ⟨entry, hentry, rfl⟩ := List.mem_map.1 hmark
      obtain ⟨segment, rest, heq⟩ := hbelow entry hentry
      show splitDir entry.2 ≠ splitDir dir
      simp [heq]
    show (insertInto builder.tree (marks dir type name manifest)).markerAt (splitDir dir) = _
    rw [markerAt_insertInto hordered, lastMarker?_marks, hnone, if_pos rfl]
    rfl

/-- A builder that knows activity modules. -/
def modules : TreeBuilder :=
  .ofManifest ⟨[("mod", "mod")], [("admin", some "admin")]⟩

/-- Two types of assignments, the second of them spelled from the root. -/
def assignTypes : SubpluginManifest :=
  ⟨[("assignfeedback", "./feedback")], [("assignsubmission", "/mod/assign//submission/")]⟩

theorem ordered_modules : modules.tree.Ordered :=
  ordered_ofManifests ⟨[("mod", "mod")], [("admin", some "admin")]⟩ []

theorem graft_nests_iff_assign :
    modules.tree.Ordered ∧ modules.typeDirs.lookup ("mod" : Text) = some ("mod" : Text)
    ∧ (∀ entry ∈ assignTypes.types, inside (pluginDir "mod" "assign") entry.2 ≠ [])
    ∧ Nests ["mod", "assign"] "mod" "assign" assignTypes
      (modules.graft "mod" "assign" assignTypes)
    ∧ modules.graft "block" "assign" assignTypes = (modules, []) := by
  have hknown : modules.typeDirs.lookup ("mod" : Text) = some ("mod" : Text) := by decide
  have hinside : ∀ entry ∈ assignTypes.types, inside (pluginDir "mod" "assign") entry.2 ≠ [] := by
    decide
  obtain ⟨hnests, -⟩ := graft_nests_iff ordered_modules "mod" "assign" assignTypes
  obtain ⟨-, hunknown⟩ := graft_nests_iff ordered_modules "block" "assign" assignTypes
  exact ⟨ordered_modules, hknown, hinside, (hnests "mod" hknown).2.2.2 hinside,
    hunknown (by decide)⟩

/-- A type whose directory is empty. -/
def unplaced : SubpluginManifest :=
  ⟨[("assignfeedback", "")], []⟩

/-- A type without a segment of its own takes the place of its plugin, whether its
directory is empty or spelled from the root. -/
theorem owner_overwritten :
    (modules.graft "mod" "assign" unplaced).2.map (fun entry => splitDir entry.2)
        = [[("mod" : Text), ("assign" : Text)]]
    ∧ (modules.graft "mod" "assign" unplaced).1.tree.markerAt ["mod", "assign"]
        = some (.pluginTypeRoot "assignfeedback")
    ∧ (modules.graft "mod" "assign" ⟨[("assignfeedback", "mod/assign/.")], []⟩).1.tree.markerAt
        ["mod", "assign"] = some (.pluginTypeRoot "assignfeedback")
    ∧ ¬Nests ["mod", "assign"] "mod" "assign" unplaced
      (modules.graft "mod" "assign" unplaced) := by
  have hmark : (modules.graft "mod" "assign" unplaced).1.tree.markerAt ["mod", "assign"]
      = some (.pluginTypeRoot "assignfeedback") := by
    decide +kernel
  refine ⟨by decide +kernel, hmark, by decide +kernel, fun hnests => ?_⟩
  have howner := hnests.owner
  rw [hmark] at howner
  cases howner

end TreeBuilder

end ComponentPaths
