/-
A load as a sequence of visits.

One step of a load takes the next plugin, reads the sub-plugin manifest in its
directory if there is one, and grafts it. `Visit` is what such a step has to go
by: the builder before it, the plugin and what was found. `Run` puts steps
together, and a load that ends is a run after which nothing is left to visit
(`finish?_of_run`, `exists_run_of_finish?`).

All that a visit does to the builder is to add to it (`Visit.grown`): there are
more marks on the tree, and more directories of types, of which the latest
counts.
-/
import ComponentPaths.Proofs.Disk.Growing
import ComponentPaths.Proofs.Tree.Grafting
import ComponentPaths.Tree.Load

namespace ComponentPaths

open ComponentTree (splitDir insertInto)

-- ================================================================= listing

/-- The directories in a directory. -/
theorem Disk.mem_subdirectories {d : Disk} {path name : Text} (h : name ∈ d.subdirectories path) :
    ∃ place, d.locate path = .ok place ∧ (place ++ [name], .directory) ∈ d.entries := by
  unfold subdirectories at h
  split at h
  · split at h
    · cases h
    · next place hplace =>
      obtain ⟨⟨names, entry⟩, hmem, hname⟩ := List.mem_filterMap.1 h
      split at hname
      · next found heq =>
        cases heq
        cases hname
        exact ⟨place, hplace, (mem_below.1 hmem).2⟩
      · cases hname
  · cases h

namespace Visits

variable {d : Disk} {root type dir : Text} {plugin : PluginDir}

theorem mem_pluginsIn (h : plugin ∈ pluginsIn d root type dir) :
    plugin.type = type ∧ plugin.dir = dir ++ '/' :: plugin.name
      ∧ plugin.name ∈ d.subdirectories (Path.join root dir) := by
  unfold pluginsIn Text.sort at h
  dsimp only at h
  obtain ⟨name, hname, rfl⟩ := List.mem_map.1 h
  exact ⟨rfl, rfl, (List.mem_filter.1 (List.mem_mergeSort.1 hname)).1⟩

/-- A directory that waits is visited as if its plugins were under way. -/
theorem next?_waiting (d : Disk) (root type dir : Text) (waiting : List (Text × Text)) :
    next? d root ⟨[], (type, dir) :: waiting⟩
      = next? d root ⟨pluginsIn d root type dir, waiting⟩ := by
  unfold next?
  dsimp only
  rw [nextWaiting?]
  cases pluginsIn d root type dir with
  | nil => rfl
  | cons plugin rest => rfl

/-- What holds of all plugins under way and of all directories that wait holds of the
next plugin and of what is left after it. -/
theorem forall_of_next? {P : PluginDir → Prop} {Q : Text × Text → Prop} {v rest : Visits}
    (hlist : ∀ entry, Q entry → ∀ p ∈ pluginsIn d root entry.1 entry.2, P p)
    (hcurrent : ∀ p ∈ v.current, P p) (hwaiting : ∀ entry ∈ v.waiting, Q entry)
    (h : v.next? d root = some (plugin, rest)) :
    P plugin ∧ (∀ p ∈ rest.current, P p) ∧ ∀ entry ∈ rest.waiting, Q entry := by
  obtain ⟨current, waiting⟩ := v
  induction waiting generalizing current with
  | nil =>
      cases current with
      | nil => cases h
      | cons p current =>
          cases h
          obtain ⟨hp, hcurrent⟩ := List.forall_mem_cons.1 hcurrent
          exact ⟨hp, hcurrent, hwaiting⟩
  | cons entry waiting ih =>
      cases current with
      | nil =>
          rw [next?_waiting] at h
          obtain ⟨hentry, hwaiting⟩ := List.forall_mem_cons.1 hwaiting
          exact ih _ (hlist entry hentry) hwaiting h
      | cons p current =>
          cases h
          obtain ⟨hp, hcurrent⟩ := List.forall_mem_cons.1 hcurrent
          exact ⟨hp, hcurrent, hwaiting⟩

end Visits

-- ================================================================== visits

/-- A plugin that is visited, with the builder before and the manifest found. -/
structure Visit where
  builder : TreeBuilder
  plugin : PluginDir
  found : Option SubpluginManifest

namespace Visit

/-- The directory of the plugin, by the one that its type has at that moment. -/
def home? (v : Visit) : Option Text :=
  (v.builder.typeDirs.lookup v.plugin.type).map
    fun typeDir => TreeBuilder.pluginDir typeDir v.plugin.name

/-- The types that a visit declares, with their directories. -/
def declared (v : Visit) : List (Text × Text) :=
  match v.found, v.home? with
  | some manifest, some home => TreeBuilder.declaredDirs home manifest
  | _, _ => []

/-- The insertions of a visit. -/
def marks (v : Visit) : List (Text × Marker) :=
  match v.found, v.home? with
  | some manifest, some home => TreeBuilder.marks home v.plugin.type v.plugin.name manifest
  | _, _ => []

/-- The builder after a visit. -/
def grown (v : Visit) : TreeBuilder :=
  ⟨insertInto v.builder.tree v.marks, v.declared.reverse ++ v.builder.typeDirs⟩

theorem graft_eq (v : Visit) {manifest : SubpluginManifest} (h : v.found = some manifest) :
    v.builder.graft v.plugin.type v.plugin.name manifest = (v.grown, v.declared) := by
  unfold grown declared marks home?
  rw [h]
  cases hknown : v.builder.typeDirs.lookup v.plugin.type with
  | none => exact TreeBuilder.graft_of_unknown hknown
  | some typeDir => exact TreeBuilder.graft_of_known hknown

theorem mem_declared {v : Visit} {entry : Text × Text} (h : entry ∈ v.declared) :
    ∃ manifest home dir, v.found = some manifest ∧ v.home? = some home
      ∧ (entry.1, dir) ∈ manifest.types
      ∧ splitDir entry.2 = splitDir home ++ TreeBuilder.inside home dir := by
  unfold declared at h
  split at h
  · next manifest home hfound hhome =>
    obtain ⟨dir, hdir, hsegments⟩ := TreeBuilder.mem_declaredDirs h
    exact ⟨manifest, home, dir, hfound, hhome, hdir, hsegments⟩
  · cases h

end Visit

namespace Loading

variable {d : Disk} {settings : Settings} {root : Text} {s last : Loading}
  {visits : List Visit} {limit : Nat} {tree : ComponentTree}

/-- The sub-plugin manifest in the directory of a plugin. -/
def manifestIn (d : Disk) (settings : Settings) (root dir : Text) :
    Except Fault (Option SubpluginManifest) :=
  SubpluginManifest.load d (Path.join (Path.join root dir) settings.subpluginManifestPath)

/-- What a file declares. -/
def declaredIn? (content : Bytes) : Option SubpluginManifest :=
  (Bytes.toText? content).bind fun text => (SubpluginManifest.ofText [] text).toOption

/-- The name of the file only counts where there is a fault. -/
theorem ofText_eq_ok_iff {path text : Text} {manifest : SubpluginManifest} :
    SubpluginManifest.ofText path text = .ok manifest
      ↔ (SubpluginManifest.ofText [] text).toOption = some manifest := by
  unfold SubpluginManifest.ofText Manifest.check
  cases Json.ofText? text with
  | none => simp [Except.toOption]
  | some value =>
      dsimp only
      split
      · cases SubpluginManifest.ofValue? value <;> simp [Except.toOption]
      · simp [Except.toOption]

/-- There is no manifest, or it is what some file declares. -/
theorem manifestIn_cases (d : Disk) (settings : Settings) (root dir : Text) :
    manifestIn d settings root dir = .ok none
    ∨ ∃ place content, (place, .file content) ∈ d.entries
      ∧ ∀ manifest, manifestIn d settings root dir = .ok (some manifest)
        ↔ declaredIn? content = some manifest := by
  unfold manifestIn SubpluginManifest.load
  generalize Path.join (Path.join root dir) settings.subpluginManifestPath = path
  by_cases hfile : d.isFile path = true
  · obtain ⟨content, hread⟩ := Disk.exists_read_of_isFile hfile
    obtain ⟨place, -, hentry⟩ := Disk.stat_eq_ok_iff.1 (Disk.read_eq_ok_iff.1 hread)
    have hplace : place ≠ [] := by
      intro hnil
      rw [hnil] at hentry
      cases hentry
    refine Or.inr ⟨place, content, Disk.mem_entries hplace hentry, fun manifest => ?_⟩
    rw [if_pos hfile]
    unfold declaredIn? Disk.readText
    rw [hread]
    dsimp only
    cases Bytes.toText? content with
    | none => simp
    | some text =>
        dsimp only [Option.bind_some]
        rw [← ofText_eq_ok_iff]
        cases SubpluginManifest.ofText path text with
        | error fault => simp [Except.map]
        | ok manifest => simp [Except.map]
  · exact Or.inl (if_neg hfile)

/-- The state after a visit. -/
def after (settings : Settings) (v : Visit) (rest : Visits) : Loading :=
  ⟨v.grown, enqueueCapable settings rest v.declared⟩

theorem visit_eq (d : Disk) (settings : Settings) (root : Text) (builder : TreeBuilder)
    (plugin : PluginDir) (rest : Visits) :
    visit d settings root builder plugin rest
      = (manifestIn d settings root plugin.dir).map
          fun found => after settings ⟨builder, plugin, found⟩ rest := by
  unfold visit manifestIn
  dsimp only
  cases SubpluginManifest.load d
      (Path.join (Path.join root plugin.dir) settings.subpluginManifestPath) with
  | error fault => rfl
  | ok found =>
      cases found with
      | none => rfl
      | some manifest =>
          dsimp only
          rw [Visit.graft_eq ⟨builder, plugin, some manifest⟩ rfl]
          rfl

/-- The types that may have sub-plugins wait behind what waits already. -/
theorem enqueueCapable_eq (settings : Settings) (v : Visits) (types : List (Text × Text)) :
    enqueueCapable settings v types
      = ⟨v.current, v.waiting ++ (types.filter fun entry => settings.supportsSubplugins entry.1).map
          fun entry => (entry.1, Text.trimSlashes entry.2)⟩ := by
  unfold enqueueCapable
  induction types generalizing v with
  | nil => simp
  | cons entry types ih =>
      rw [List.foldl_cons, ih]
      by_cases hcapable : settings.supportsSubplugins entry.1 = true
      · simp [hcapable, Visits.enqueue]
      · simp [hcapable]

-- ==================================================================== runs

/-- From a state, some visits lead to a state. -/
inductive Run (d : Disk) (settings : Settings) (root : Text) :
    Loading → List Visit → Loading → Prop
  | done (s : Loading) : Run d settings root s [] s
  | visit {s last : Loading} {plugin : PluginDir} {rest : Visits}
      {found : Option SubpluginManifest} {visits : List Visit}
      (yields : s.visits.next? d root = some (plugin, rest))
      (reads : manifestIn d settings root plugin.dir = .ok found)
      (later : Run d settings root (after settings ⟨s.builder, plugin, found⟩ rest) visits last) :
      Run d settings root s (⟨s.builder, plugin, found⟩ :: visits) last

theorem step?_eq (s : Loading) :
    step? d settings root s = (s.visits.next? d root).map fun (plugin, rest) =>
      (manifestIn d settings root plugin.dir).map
        fun found => after settings ⟨s.builder, plugin, found⟩ rest := by
  unfold step?
  simp only [visit_eq]

/-- A load goes on from where a run has led, with fewer visits left. -/
theorem finish?_of_run (h : Run d settings root s visits last) (limit : Nat) :
    finish? d settings root (visits.length + limit) s = finish? d settings root limit last := by
  induction h with
  | done s => rw [List.length_nil, Nat.zero_add]
  | visit yields reads later ih =>
      rw [List.length_cons, Nat.add_right_comm, finish?, step?_eq, yields]
      dsimp only [Option.map_some]
      rw [reads]
      exact ih

/-- A load that ends has made a run, and nothing is left to visit. -/
theorem exists_run_of_finish? (h : finish? d settings root limit s = some (.ok tree)) :
    ∃ visits last, Run d settings root s visits last ∧ last.visits.next? d root = none
      ∧ tree = last.builder.tree := by
  fun_induction finish? d settings root limit s with
  | case1 limit s hdone =>
      cases h
      rw [step?_eq, Option.map_eq_none_iff] at hdone
      exact ⟨[], s, .done s, hdone, rfl⟩
  | case2 limit s fault hfault => cases h
  | case3 s next hstep => cases h
  | case4 s next hstep left ih =>
      obtain ⟨visits, last, hrun, hdone, htree⟩ := ih h
      rw [step?_eq] at hstep
      obtain ⟨⟨plugin, rest⟩, hyields, hvisit⟩ := Option.map_eq_some_iff.1 hstep
      dsimp only at hvisit
      cases hreads : manifestIn d settings root plugin.dir with
      | error fault =>
          rw [hreads] at hvisit
          cases hvisit
      | ok found =>
          rw [hreads] at hvisit
          cases hvisit
          exact ⟨_, last, .visit hyields hreads hrun, hdone, htree⟩

end Loading

end ComponentPaths
