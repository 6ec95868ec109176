/-
Where trees come from.

A tree is empty, or made from manifests, or loaded from a disk. A load comes
upon its manifests one by one and grafts each of them right away, and what it
visits next depends on the types that were grafted. But a visit changes the
tree in no other way than by a graft, so whatever the disk holds, a loaded
tree is the tree of the primary manifest and of the manifests found, in the
order of the visits (`exists_ofManifests_of_load`).
-/
import ComponentPaths.Proofs.Tree.Markers
import ComponentPaths.Tree.Load

namespace ComponentPaths

/-- A builder after some sub-plugin manifests, grafted in order. -/
def TreeBuilder.Grafted (primary : Manifest) (builder : TreeBuilder) : Prop :=
  ∃ plugins : List PluginManifest, builder
    = plugins.foldl (fun b p => (b.graft p.type p.name p.manifest).1) (.ofManifest primary)

/-- One more graft. -/
theorem TreeBuilder.Grafted.graft {primary : Manifest} {builder : TreeBuilder}
    (h : builder.Grafted primary) (type name : Text) (manifest : SubpluginManifest) :
    (builder.graft type name manifest).1.Grafted primary := by
  obtain ⟨plugins, rfl⟩ := h
  refine ⟨plugins ++ [⟨type, name, manifest⟩], ?_⟩
  rw [List.foldl_append]
  rfl

namespace Loading

variable {d : Disk} {settings : Settings} {root : Text} {primary : Manifest}
  {tree : ComponentTree} {s next : Loading}

/-- A visit grafts, or it leaves the builder as it is. -/
theorem grafted_visit {builder : TreeBuilder} {plugin : PluginDir} {rest : Visits}
    (hb : builder.Grafted primary)
    (h : visit d settings root builder plugin rest = .ok next) :
    next.builder.Grafted primary := by
  unfold visit at h
  dsimp only at h
  split at h
  · cases h
  · cases h
    exact hb
  · cases h
    exact hb.graft _ _ _

/-- And so does a step. -/
theorem grafted_step (hs : s.builder.Grafted primary)
    (h : step? d settings root s = some (.ok next)) : next.builder.Grafted primary := by
  unfold step? at h
  obtain ⟨⟨plugin, rest⟩, -, hvisit⟩ := Option.map_eq_some_iff.1 h
  exact grafted_visit hs hvisit

/-- However many visits it takes, a finished load has only grafted. -/
theorem exists_ofManifests_of_finish? {limit : Nat} (hs : s.builder.Grafted primary)
    (h : finish? d settings root limit s = some (.ok tree)) :
    ∃ plugins, tree = .ofManifests primary plugins := by
  fun_induction finish? d settings root limit s with
  | case1 limit s hdone =>
      cases h
      obtain ⟨plugins, hplugins⟩ := hs
      refine ⟨plugins, ?_⟩
      rw [hplugins]
      rfl
  | case2 limit s fault hfault => cases h
  | case3 s next hstep => cases h
  | case4 s next hstep left ih => exact ih (grafted_step hs hstep) h

end Loading

namespace ComponentTree

variable {d : Disk} {settings : Settings} {root : Text} {limit : Nat} {tree : ComponentTree}

/-- A load gives a tree if it comes to its end in time. -/
theorem load_eq_ok_iff :
    load d settings root = .ok tree
      ↔ loadWithin? Loading.visitLimit d settings root = some (.ok tree) := by
  unfold load
  cases loadWithin? Loading.visitLimit d settings root with
  | none => exact ⟨nofun, nofun⟩
  | some result => exact Option.some_inj.symm

/-- A load comes to its end after the primary manifest was read. -/
theorem loadWithin?_eq_some_ok_iff :
    loadWithin? limit d settings root = some (.ok tree)
      ↔ ∃ primary, Manifest.load d (Path.join root settings.manifestPath) = .ok primary
        ∧ (Loading.start settings primary).finish? d settings root limit = some (.ok tree) := by
  unfold loadWithin?
  cases Manifest.load d (Path.join root settings.manifestPath) with
  | error fault => exact ⟨nofun, nofun⟩
  | ok primary =>
      refine ⟨fun h => ⟨primary, rfl, h⟩, ?_⟩
      rintro ⟨other, hother, h⟩
      cases hother
      exact h

/-- A loaded tree is the tree of the manifests found. -/
theorem exists_ofManifests_of_load (h : loadWithin? limit d settings root = some (.ok tree)) :
    ∃ primary plugins, tree = ofManifests primary plugins := by
  obtain ⟨primary, -, hfinish⟩ := loadWithin?_eq_some_ok_iff.1 h
  exact ⟨primary, Loading.exists_ofManifests_of_finish? ⟨[], rfl⟩ hfinish⟩

/-- The trees there are, however many visits it takes to load them. -/
inductive Built : ComponentTree → Prop
  | empty : Built .empty
  | ofManifests (primary : Manifest) (plugins : List PluginManifest) :
      Built (.ofManifests primary plugins)
  | load {d : Disk} {settings : Settings} {root : Text} {limit : Nat} {tree : ComponentTree}
      (h : loadWithin? limit d settings root = some (.ok tree)) : Built tree

end ComponentTree

end ComponentPaths
