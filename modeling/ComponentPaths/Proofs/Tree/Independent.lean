/-
Grafts that do not meet may come in any order.

Each graft reads the directory of its type from the builder and puts further
types into it, so in general the order matters. It does not where all plugins
are of types of the primary manifest and declare others: then every graft finds
its type where the primary manifest has it (`Agrees`), and what it inserts is
known beforehand (`marksOf`). So the tree of the manifests is one sequence of
insertions (`tree_foldl_graft`), and of two that do not share a directory
neither can be the last one where the other inserts (`lastMarker?_flatMap`).

Such sequences have the same directories and the same markers in every order.
That is all there is to an ordered tree (`eq_of_markerAt`): it has no numbers
of nodes that would tell when a node was made.
-/
import ComponentPaths.Proofs.Tree.Grafting
import ComponentPaths.Tree.Resolve

namespace ComponentPaths

namespace TreeBuilder

open ComponentTree

variable {primary : Manifest} {builder : TreeBuilder} {p : PluginManifest}
  {plugins plugins' : List PluginManifest}

-- ==================================================== grafts known beforehand

/-- What a plugin inserts whose type is where the primary manifest has it. -/
def marksOf (primary : Manifest) (p : PluginManifest) : List (Text × Marker) :=
  match primary.pluginTypes.lookup p.type with
  | some typeDir => marks (pluginDir typeDir p.name) p.type p.name p.manifest
  | none => []

/-- The directories that a plugin inserts into: its own and those of its types. -/
def touched (primary : Manifest) (p : PluginManifest) : List (List Text) :=
  (marksOf primary p).map fun mark => splitDir mark.1

/-- A plugin is of a type of the primary manifest, and declares none of those. -/
structure AddsTypes (primary : Manifest) (p : PluginManifest) : Prop where
  owner : (primary.pluginTypes.lookup p.type).isSome
  fresh : ∀ entry ∈ p.manifest.types, primary.pluginTypes.lookup entry.1 = none

instance (primary : Manifest) (p : PluginManifest) : Decidable (AddsTypes primary p) :=
  decidable_of_iff ((primary.pluginTypes.lookup p.type).isSome
      ∧ ∀ entry ∈ p.manifest.types, primary.pluginTypes.lookup entry.1 = none)
    ⟨fun h => ⟨h.1, h.2⟩, fun h => ⟨h.owner, h.fresh⟩⟩

/-- A builder has the types of the primary manifest where that has them. -/
def Agrees (primary : Manifest) (builder : TreeBuilder) : Prop :=
  ∀ type typeDir, primary.pluginTypes.lookup type = some typeDir →
    builder.typeDirs.lookup type = some typeDir

/-- A type that is not declared is not among the directories of the declared ones. -/
theorem lookup_declaredDirs {pluginDir type : Text} {manifest : SubpluginManifest}
    (h : ∀ entry ∈ manifest.types, entry.1 ≠ type) :
    (declaredDirs pluginDir manifest).reverse.lookup type = none := by
  rw [List.lookup_eq_none_iff]
  intro entry hentry
  obtain ⟨declared, hmem, -⟩ := mem_declaredDirs (List.mem_reverse.1 hentry)
  simpa using (h _ hmem).symm

/-- One graft inserts what is known beforehand, and leaves the types of the
primary manifest where they are. -/
theorem Agrees.graft (hagrees : Agrees primary builder) (hp : AddsTypes primary p) :
    (builder.graft p.type p.name p.manifest).1.tree
        = insertInto builder.tree (marksOf primary p)
      ∧ Agrees primary (builder.graft p.type p.name p.manifest).1 := by
  obtain ⟨typeDir, htypeDir⟩ := Option.isSome_iff_exists.1 hp.owner
  rw [graft_of_known (hagrees p.type typeDir htypeDir), marksOf, htypeDir]
  refine ⟨rfl, fun type dir hdir => ?_⟩
  have hother : ∀ entry ∈ p.manifest.types, entry.1 ≠ type := by
    intro entry hentry heq
    have hnone := hp.fresh entry hentry
    rw [heq, hdir] at hnone
    cases hnone
  show List.lookup type (_ ++ builder.typeDirs) = some dir
  rw [List.lookup_append, lookup_declaredDirs hother, Option.none_or]
  exact hagrees type dir hdir

/-- All grafts together insert what is known beforehand. -/
theorem tree_foldl_graft (hagrees : Agrees primary builder)
    (hplugins : ∀ p ∈ plugins, AddsTypes primary p) :
    (plugins.foldl (fun b p => (b.graft p.type p.name p.manifest).1) builder).tree
      = insertInto builder.tree (plugins.flatMap (marksOf primary)) := by
  induction plugins generalizing builder with
  | nil => rfl
  | cons p plugins ih =>
      obtain ⟨htree, hagrees'⟩ := hagrees.graft (hplugins p List.mem_cons_self)
      rw [List.foldl_cons, List.flatMap_cons, insertInto_append, ← htree]
      exact ih hagrees' fun q hq => hplugins q (List.mem_cons_of_mem _ hq)

-- ============================================================ independence

/-- Two plugins insert into different directories. -/
def Apart (primary : Manifest) (p q : PluginManifest) : Prop :=
  ∀ path ∈ touched primary p, path ∉ touched primary q

instance (primary : Manifest) (p q : PluginManifest) : Decidable (Apart primary p q) :=
  inferInstanceAs (Decidable (∀ _ ∈ _, _))

theorem Apart.symm {q : PluginManifest} (h : Apart primary p q) : Apart primary q p :=
  fun path hq hp => h path hp hq

theorem mem_touched_of_lastMarker? {path : List Text} {marker : Marker}
    (h : lastMarker? (marksOf primary p) path = some marker) : path ∈ touched primary p := by
  obtain ⟨mark, hmark, hpath, -⟩ := mem_of_lastMarker? h
  exact List.mem_map.2 ⟨mark, hmark, hpath⟩

/-- Among plugins that are apart, the marker of a directory is that of the one
plugin that inserts there. -/
theorem lastMarker?_flatMap (hapart : plugins.Pairwise (Apart primary)) {path : List Text}
    {marker : Marker} :
    lastMarker? (plugins.flatMap (marksOf primary)) path = some marker
      ↔ ∃ p ∈ plugins, lastMarker? (marksOf primary p) path = some marker := by
  induction plugins with
  | nil =>
      constructor
      · intro h
        cases h
      · rintro ⟨p, hp, -⟩
        cases hp
  | cons p plugins ih =>
      obtain ⟨hp, hplugins⟩ := List.pairwise_cons.1 hapart
      rw [List.flatMap_cons, lastMarker?_append, Option.or_eq_some_iff, ih hplugins]
      constructor
      · intro h
        rcases h with ⟨q, hq, hlast⟩ | ⟨-, hlast⟩
        · exact ⟨q, List.mem_cons_of_mem _ hq, hlast⟩
        · exact ⟨p, List.mem_cons_self, hlast⟩
      · intro ⟨q, hq, hlast⟩
        rcases List.mem_cons.1 hq with rfl | hq
        · -- the others insert elsewhere
          right
          refine ⟨lastMarker?_eq_none_iff.2 fun mark hmark hpath => ?_, hlast⟩
          obtain ⟨r, hr, hmark⟩ := List.mem_flatMap.1 hmark
          have htouched := mem_touched_of_lastMarker? hlast
          exact hp r hr path htouched (List.mem_map.2 ⟨mark, hmark, hpath⟩)
        · exact Or.inl ⟨q, hq, hlast⟩

theorem insertInto_perm {tree : ComponentTree} (htree : tree.Ordered)
    (hperm : plugins.Perm plugins') (hapart : plugins.Pairwise (Apart primary)) :
    insertInto tree (plugins.flatMap (marksOf primary))
      = insertInto tree (plugins'.flatMap (marksOf primary)) := by
  have hapart' : plugins'.Pairwise (Apart primary) :=
    hperm.pairwise hapart fun h => h.symm
  refine eq_of_markerAt (ordered_insertInto htree _) (ordered_insertInto htree _)
    (fun path => ?_) fun path => ?_
  · simp only [isSome_descend?_insertInto htree, List.mem_flatMap, hperm.mem_iff]
  · have hlast : lastMarker? (plugins.flatMap (marksOf primary)) path
        = lastMarker? (plugins'.flatMap (marksOf primary)) path := by
      refine Option.ext fun marker => ?_
      rw [lastMarker?_flatMap hapart, lastMarker?_flatMap hapart']
      simp only [hperm.mem_iff]
    rw [markerAt_insertInto htree, markerAt_insertInto htree, hlast]

/-- Plugins of primary types that declare other types and insert into different
directories may be grafted in any order: the marked directories are the same,
and so is the owner of every path. -/
theorem grafts_commute {primary : Manifest} {plugins plugins' : List PluginManifest}
    (hperm : plugins.Perm plugins') (hplugins : ∀ p ∈ plugins, AddsTypes primary p)
    (hapart : plugins.Pairwise (Apart primary)) :
    (ComponentTree.ofManifests primary plugins).markedDirs
        = (ComponentTree.ofManifests primary plugins').markedDirs
      ∧ ∀ path, (ComponentTree.ofManifests primary plugins).resolve? path
          = (ComponentTree.ofManifests primary plugins').resolve? path := by
  have hstart : Agrees primary (ofManifest primary) := fun _ _ h => h
  have hordered : (ofManifest primary).tree.Ordered := ordered_ofManifests primary []
  have htree : ComponentTree.ofManifests primary plugins
      = ComponentTree.ofManifests primary plugins' := by
    unfold ComponentTree.ofManifests
    rw [tree_foldl_graft hstart hplugins,
      tree_foldl_graft hstart fun p hp => hplugins p (hperm.mem_iff.2 hp)]
    exact insertInto_perm hordered hperm hapart
  rw [htree]
  exact ⟨rfl, fun path => rfl⟩

/-- Two plugins with types of their own. -/
def assignAndQuiz : List PluginManifest :=
  [⟨"mod", "assign", assignTypes⟩, ⟨"mod", "quiz", ⟨[("quiz", "report")], []⟩⟩]

theorem grafts_commute_assignAndQuiz :
    (∀ p ∈ assignAndQuiz, AddsTypes ⟨[("mod", "mod")], []⟩ p)
    ∧ assignAndQuiz.Pairwise (Apart ⟨[("mod", "mod")], []⟩)
    ∧ (ComponentTree.ofManifests ⟨[("mod", "mod")], []⟩ assignAndQuiz).resolve?
        "@/mod/assign/feedback/file/lib.php"
      = (ComponentTree.ofManifests ⟨[("mod", "mod")], []⟩ assignAndQuiz.reverse).resolve?
        "@/mod/assign/feedback/file/lib.php" := by
  have hplugins : ∀ p ∈ assignAndQuiz, AddsTypes ⟨[("mod", "mod")], []⟩ p := by decide
  have hapart : assignAndQuiz.Pairwise (Apart ⟨[("mod", "mod")], []⟩) := by decide
  exact ⟨hplugins, hapart,
    (grafts_commute assignAndQuiz.reverse_perm.symm hplugins hapart).2 _⟩

end TreeBuilder

end ComponentPaths
