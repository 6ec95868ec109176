/-
Loading ends.

A visit may declare more types, whose directories then wait to be visited too.
A type may be declared again and again, by its own plugins even, and the same
directory may wait any number of times. Nor does a graft keep to the directory
under visit: it goes to wherever the type of the plugin is at that moment.

But no type is ever moved up. The visits fall into rounds, each of which visits
what waited when it began. During round `g` all types that it visits are at
least `g` segments deep, wherever they have moved since (`TreeBuilder.Deep`), and what a
visit declares is deeper by the name of its plugin (`Visit.down_declared`). So
all that waits for the next round is at least `g + 1` segments deep. A round
comes to its end, since it adds nothing to what it visits itself (`ends_round`).
And without steps up a directory leads as deep into the disk as it has
segments, so that in the end a round has nothing to visit (`ends_deep`).
-/
import ComponentPaths.Proofs.Tree.Visits

namespace ComponentPaths

open ComponentTree (splitDir)
open Relative (IsName)

-- =================================================================== depth

namespace ComponentTree

/-- A directory is cut into segments without the void ones. -/
theorem splitDir_eq_filter (dir : Text) :
    splitDir dir = (Text.splitSlash dir).filter fun s => !Path.isVoid s := by
  unfold splitDir Path.isVoid
  congr 1
  funext s
  rw [Bool.not_or]
  rfl

theorem splitDir_name {name : Text} (h : IsName name) : splitDir name = [name] := by
  have hnames : ∀ s ∈ [name], IsName s := List.forall_mem_singleton.2 h
  have hsplit := Text.splitSlash_names hnames (List.cons_ne_nil name [])
  rw [Text.joinSlash_singleton] at hsplit
  rw [splitDir_eq_filter, hsplit, filter_void_names hnames]

theorem up_mem_splitDir_iff {dir : Text} :
    (".." : Text) ∈ splitDir dir ↔ (".." : Text) ∈ Text.splitSlash dir := by
  unfold splitDir
  rw [List.mem_filter, and_iff_left (by decide)]

end ComponentTree

/-- A directory without steps up, at least so many segments deep. -/
def Down (depth : Nat) (dir : Text) : Prop :=
  (".." : Text) ∉ splitDir dir ∧ depth ≤ (splitDir dir).length

theorem Down.mono {depth less : Nat} {dir : Text} (h : Down depth dir) (hle : less ≤ depth) :
    Down less dir :=
  ⟨h.1, Nat.le_trans hle h.2⟩

/-- Separators around a directory do not count. -/
theorem Down.trimSlashes {depth : Nat} {dir : Text} (h : Down depth dir) :
    Down depth (Text.trimSlashes dir) := by
  unfold Down
  rw [ComponentTree.splitDir_trimSlashes]
  exact h

/-- A directory below the root keeps its parts. -/
theorem Path.splitSlash_join (root dir : Text) :
    ∃ front, Text.splitSlash (join root dir) = front ++ Text.splitSlash dir := by
  unfold join
  split
  · exact ⟨[], rfl⟩
  · split
    · next hslash =>
      obtain ⟨base, rfl⟩ := List.getLast?_eq_some_iff.1 (beq_iff_eq.1 hslash)
      rw [List.append_assoc]
      exact ⟨_, Text.splitSlash_append_slash base dir⟩
    · exact ⟨_, Text.splitSlash_append_slash root dir⟩

namespace Disk

variable {d : Disk} {root dir type : Text} {place : Place} {depth : Nat}

/-- Without steps up, a directory leads to a place that ends with its segments. -/
theorem suffix_of_locate_join (hup : (".." : Text) ∉ splitDir dir)
    (h : d.locate (Path.join root dir) = .ok place) : splitDir dir <:+ place := by
  obtain ⟨-, hfollow⟩ := locate_eq_ok_iff.1 h
  obtain ⟨front, hfront⟩ := Path.splitSlash_join root dir
  rw [hfront] at hfollow
  obtain ⟨middle, -, hlast⟩ := follow_append_eq_ok_iff.1 hfollow
  refine ⟨middle, ?_⟩
  rw [follow_eq_of_noUp (mt ComponentTree.up_mem_splitDir_iff.2 hup) hlast,
    ComponentTree.splitDir_eq_filter]

/-- Some entry is the deepest. -/
theorem exists_deepest (d : Disk) : ∃ depth, ∀ entry ∈ d.entries, entry.1.length ≤ depth := by
  induction d.entries with
  | nil => exact ⟨0, List.forall_mem_nil _⟩
  | cons first entries ih =>
      obtain ⟨depth, hdepth⟩ := ih
      refine ⟨max first.1.length depth, List.forall_mem_cons.2 ⟨Nat.le_max_left _ _, ?_⟩⟩
      intro entry hentry
      exact Nat.le_trans (hdepth entry hentry) (Nat.le_max_right _ _)

/-- There are no plugins below the deepest entry. -/
theorem pluginsIn_eq_nil (hdepth : ∀ entry ∈ d.entries, entry.1.length ≤ depth)
    (hdown : Down depth dir) : Visits.pluginsIn d root type dir = [] := by
  rw [List.eq_nil_iff_forall_not_mem]
  intro plugin hplugin
  obtain ⟨-, -, hname⟩ := Visits.mem_pluginsIn hplugin
  obtain ⟨place, hplace, hmem⟩ := mem_subdirectories hname
  have hlength := (suffix_of_locate_join hdown.1 hplace).length_le
  have hentry := hdepth _ hmem
  rw [List.length_append, List.length_singleton] at hentry
  have hdeep := hdown.2
  omega

/-- Plugins on a sound disk have names. -/
theorem Sound.isName_plugin {plugin : PluginDir} (h : d.Sound)
    (hplugin : plugin ∈ Visits.pluginsIn d root type dir) : IsName plugin.name := by
  obtain ⟨-, -, hname⟩ := Visits.mem_pluginsIn hplugin
  obtain ⟨place, -, hmem⟩ := mem_subdirectories hname
  exact h.names _ hmem _ (List.mem_append_right _ (List.mem_singleton_self _))

end Disk

-- ================================================================== visits

/-- What a declared directory has beyond its plugin are the last of its segments. -/
theorem TreeBuilder.inside_suffix (pluginDir declared : Text) :
    inside pluginDir declared <:+ splitDir declared := by
  unfold inside
  cases hrest : Text.dropHead? (pluginDir ++ ['/']) (Text.trimSlashes declared) with
  | none => exact List.suffix_rfl
  | some rest =>
      have heq := Text.dropHead?_eq_some_iff.1 hrest
      rw [List.append_assoc] at heq
      rw [← ComponentTree.splitDir_trimSlashes declared, heq]
      exact ⟨_, (ComponentTree.splitDir_append_slash pluginDir rest).symm⟩

/-- A manifest whose directories have no steps up. -/
def SubpluginManifest.Downward (manifest : SubpluginManifest) : Prop :=
  ∀ entry ∈ manifest.types, (".." : Text) ∉ Text.splitSlash entry.2

instance (manifest : SubpluginManifest) : Decidable manifest.Downward :=
  inferInstanceAs (Decidable (∀ entry ∈ manifest.types, (".." : Text) ∉ Text.splitSlash entry.2))

theorem mem_of_lookup {entries : List (Text × Text)} {type dir : Text}
    (h : entries.lookup type = some dir) : (type, dir) ∈ entries := by
  obtain ⟨front, back, heq, -⟩ := List.lookup_eq_some_iff.1 h
  rw [heq]
  exact List.mem_append_right _ List.mem_cons_self

/-- Wherever a type is, it is so deep. -/
def TreeBuilder.Deep (builder : TreeBuilder) (depth : Nat) (type : Text) : Prop :=
  ∀ dir, builder.typeDirs.lookup type = some dir → Down depth dir

namespace Visit

variable {v : Visit} {depth : Nat} {type : Text} {entry : Text × Text}

/-- What a visit declares is deeper than the type of its plugin. -/
theorem down_declared (hname : IsName v.plugin.name)
    (hfound : ∀ manifest, v.found = some manifest → manifest.Downward)
    (hknown : v.builder.Deep depth v.plugin.type) (h : entry ∈ v.declared) :
    Down (depth + 1) entry.2 := by
  obtain ⟨manifest, home, dir, hmanifest, hhome, hdir, hsegments⟩ := mem_declared h
  obtain ⟨typeDir, htypeDir, rfl⟩ := Option.map_eq_some_iff.1 hhome
  obtain ⟨hup, hdeep⟩ := hknown typeDir htypeDir
  have hinside : (".." : Text)
      ∉ TreeBuilder.inside (TreeBuilder.pluginDir typeDir v.plugin.name) dir := by
    intro hmem
    have hsplit := (TreeBuilder.inside_suffix _ _).subset hmem
    exact hfound manifest hmanifest _ hdir (ComponentTree.up_mem_splitDir_iff.1 hsplit)
  rw [TreeBuilder.splitDir_pluginDir, ComponentTree.splitDir_name hname] at hsegments
  unfold Down
  rw [hsegments]
  constructor
  · rw [List.mem_append, List.mem_append, List.mem_singleton]
    exact not_or.2 ⟨not_or.2 ⟨hup, hname.ne_up.symm⟩, hinside⟩
  · simp only [List.length_append, List.length_singleton]
    omega

/-- After a visit, a type is where it was or where the visit has declared it. -/
theorem deep_grown (hdeclared : ∀ entry ∈ v.declared, Down depth entry.2)
    (h : v.builder.Deep depth type ∨ type ∈ v.declared.map Prod.fst) :
    v.grown.Deep depth type := by
  intro dir hdir
  have hlookup : (v.declared.reverse ++ v.builder.typeDirs).lookup type = some dir := hdir
  rw [List.lookup_append, Option.or_eq_some_iff] at hlookup
  rcases hlookup with hnew | ⟨hnone, hold⟩
  · exact hdeclared (type, dir) (List.mem_reverse.1 (mem_of_lookup hnew))
  · rcases h with h | h
    · exact h dir hold
    · obtain ⟨entry, hentry, rfl⟩ := List.mem_map.1 h
      have hne := List.lookup_eq_none_iff.1 hnone entry (List.mem_reverse.2 hentry)
      exact absurd hne (by simp)

end Visit

-- ================================================================== rounds

namespace Loading

variable {d : Disk} {settings : Settings} {root : Text} {builder : TreeBuilder} {depth : Nat}
  {current : List PluginDir} {waiting more : List (Text × Text)} {s : Loading}

/-- Nothing is left to visit, or the manifest that comes next cannot be read. -/
def Over (d : Disk) (settings : Settings) (root : Text) (s : Loading) : Prop :=
  ∀ plugin rest, s.visits.next? d root = some (plugin, rest) →
    ∃ fault, manifestIn d settings root plugin.dir = .error fault

/-- Some visits lead to the end. -/
def Ends (d : Disk) (settings : Settings) (root : Text) (s : Loading) : Prop :=
  ∃ visits last, Run d settings root s visits last ∧ Over d settings root last

theorem Ends.of_over (h : Over d settings root s) : Ends d settings root s :=
  ⟨[], s, .done s, h⟩

/-- Only what comes next counts. -/
theorem Ends.congr {v v' : Visits} (hnext : v.next? d root = v'.next? d root)
    (h : Ends d settings root ⟨builder, v⟩) : Ends d settings root ⟨builder, v'⟩ := by
  obtain ⟨visits, last, hrun, hover⟩ := h
  cases hrun with
  | done =>
      apply Ends.of_over
      intro plugin rest hyields
      exact hover plugin rest (hnext.trans hyields)
  | visit yields reads later =>
      exact ⟨_, last, .visit (hnext.symm.trans yields) reads later, hover⟩

/-- A visit leads to the end if whatever is found does. -/
theorem Ends.visit {plugin : PluginDir} {rest : Visits}
    (hyields : s.visits.next? d root = some (plugin, rest))
    (h : ∀ found, manifestIn d settings root plugin.dir = .ok found →
      Ends d settings root (after settings ⟨s.builder, plugin, found⟩ rest)) :
    Ends d settings root s := by
  cases hreads : manifestIn d settings root plugin.dir with
  | error fault =>
      apply Ends.of_over
      intro other rest' hother
      rw [hyields] at hother
      cases hother
      exact ⟨fault, hreads⟩
  | ok found =>
      obtain ⟨visits, last, hrun, hover⟩ := h found hreads
      exact ⟨_, last, .visit hyields hreads hrun, hover⟩

/-- A type that waits is as deep as its directory. -/
structure DeepEntry (builder : TreeBuilder) (depth : Nat) (entry : Text × Text) : Prop where
  down : Down depth entry.2
  deep : builder.Deep depth entry.1

/-- A plugin of a type that is so deep. -/
structure DeepPlugin (builder : TreeBuilder) (depth : Nat) (plugin : PluginDir) : Prop where
  isName : IsName plugin.name
  deep : builder.Deep depth plugin.type

/-- The manifests on a disk have no steps up. -/
def Downward (d : Disk) (settings : Settings) (root : Text) : Prop :=
  ∀ dir manifest, manifestIn d settings root dir = .ok (some manifest) → manifest.Downward

/-- The plugins under way only add to what waits for the next round. -/
theorem ends_current (hfound : Downward d settings root)
    (hends : ∀ builder more, (∀ entry ∈ waiting, DeepEntry builder depth entry) →
      (∀ entry ∈ more, DeepEntry builder (depth + 1) entry) →
      Ends d settings root ⟨builder, [], waiting ++ more⟩)
    (hcurrent : ∀ plugin ∈ current, DeepPlugin builder depth plugin)
    (hwaiting : ∀ entry ∈ waiting, DeepEntry builder depth entry)
    (hmore : ∀ entry ∈ more, DeepEntry builder (depth + 1) entry) :
    Ends d settings root ⟨builder, current, waiting ++ more⟩ := by
  induction current generalizing builder more with
  | nil => exact hends builder more hwaiting hmore
  | cons plugin current ih =>
      obtain ⟨hplugin, hcurrent⟩ := List.forall_mem_cons.1 hcurrent
      refine Ends.visit rfl fun found hreads => ?_
      have hdown : ∀ entry ∈ (Visit.mk builder plugin found).declared, Down (depth + 1) entry.2 := by
        intro entry hentry
        refine Visit.down_declared hplugin.isName (fun manifest hmanifest => ?_) hplugin.deep
          hentry
        refine hfound plugin.dir manifest ?_
        rw [hreads]
        exact congrArg _ hmanifest
      have hless : ∀ entry ∈ (Visit.mk builder plugin found).declared, Down depth entry.2 :=
        fun entry hentry => (hdown entry hentry).mono (Nat.le_succ depth)
      unfold after
      rw [enqueueCapable_eq]
      dsimp only
      rw [List.append_assoc]
      apply ih
      · intro other hother
        exact ⟨(hcurrent other hother).isName,
          Visit.deep_grown hless (Or.inl (hcurrent other hother).deep)⟩
      · intro entry hentry
        exact ⟨(hwaiting entry hentry).down,
          Visit.deep_grown hless (Or.inl (hwaiting entry hentry).deep)⟩
      · intro entry hentry
        rcases List.mem_append.1 hentry with hentry | hentry
        · exact ⟨(hmore entry hentry).down,
            Visit.deep_grown hdown (Or.inl (hmore entry hentry).deep)⟩
        · obtain ⟨declared, hdeclared, rfl⟩ := List.mem_map.1 hentry
          have hmem := (List.mem_filter.1 hdeclared).1
          have htype : declared.1 ∈ (Visit.mk builder plugin found).declared.map Prod.fst :=
            List.mem_map_of_mem hmem
          exact ⟨(hdown declared hmem).trimSlashes, Visit.deep_grown hdown (Or.inr htype)⟩

/-- A round ends if the next one does. -/
theorem ends_round (hdisk : d.Sound) (hfound : Downward d settings root)
    (hnext : ∀ builder more, (∀ entry ∈ more, DeepEntry builder (depth + 1) entry) →
      Ends d settings root ⟨builder, [], more⟩)
    (hwaiting : ∀ entry ∈ waiting, DeepEntry builder depth entry)
    (hmore : ∀ entry ∈ more, DeepEntry builder (depth + 1) entry) :
    Ends d settings root ⟨builder, [], waiting ++ more⟩ := by
  induction waiting generalizing builder more with
  | nil => exact hnext builder more hmore
  | cons entry waiting ih =>
      obtain ⟨hentry, hwaiting⟩ := List.forall_mem_cons.1 hwaiting
      apply Ends.congr (Visits.next?_waiting d root entry.1 entry.2 (waiting ++ more)).symm
      refine ends_current hfound (fun builder more => ih) ?_ hwaiting hmore
      intro plugin hplugin
      obtain ⟨htype, -⟩ := Visits.mem_pluginsIn hplugin
      refine ⟨hdisk.isName_plugin hplugin, ?_⟩
      rw [htype]
      exact hentry.deep

/-- A round that is as deep as the disk has nothing to visit. -/
theorem ends_deep (hdepth : ∀ entry ∈ d.entries, entry.1.length ≤ depth)
    (hwaiting : ∀ entry ∈ waiting, DeepEntry builder depth entry) :
    Ends d settings root ⟨builder, [], waiting⟩ := by
  induction waiting with
  | nil =>
      apply Ends.of_over
      intro plugin rest hyields
      cases hyields
  | cons entry waiting ih =>
      obtain ⟨hentry, hwaiting⟩ := List.forall_mem_cons.1 hwaiting
      apply Ends.congr (Visits.next?_waiting d root entry.1 entry.2 waiting).symm
      rw [Disk.pluginsIn_eq_nil hdepth hentry.down]
      exact ih hwaiting

/-- From any round on, the visits lead to the end. -/
theorem ends_rounds (hdisk : d.Sound) (hfound : Downward d settings root)
    (hwaiting : ∀ entry ∈ waiting, DeepEntry builder depth entry) :
    Ends d settings root ⟨builder, [], waiting⟩ := by
  obtain ⟨deepest, hdeepest⟩ := d.exists_deepest
  -- by induction on how many rounds there are to the depth of the disk
  obtain ⟨rounds, hrounds⟩ : ∃ rounds, deepest ≤ depth + rounds := ⟨deepest, by omega⟩
  induction rounds generalizing builder depth waiting with
  | zero =>
      refine ends_deep (fun entry hentry => ?_) hwaiting
      exact Nat.le_trans (hdeepest entry hentry) hrounds
  | succ rounds ih =>
      rw [← List.append_nil waiting]
      refine ends_round hdisk hfound (fun builder more hmore => ?_) hwaiting
        (List.forall_mem_nil _)
      exact ih hmore (by omega)

/-- What waits at the start has no steps up. -/
theorem deep_start (settings : Settings) {primary : Manifest}
    (h : ∀ entry ∈ primary.pluginTypes, (".." : Text) ∉ Text.splitSlash entry.2) :
    ∃ waiting, start settings primary = ⟨.ofManifest primary, [], waiting⟩
      ∧ ∀ entry ∈ waiting, DeepEntry (.ofManifest primary) 0 entry := by
  have hdown : ∀ entry ∈ primary.pluginTypes, Down 0 entry.2 := fun entry hentry =>
    ⟨mt ComponentTree.up_mem_splitDir_iff.1 (h entry hentry), Nat.zero_le _⟩
  unfold start
  rw [enqueueCapable_eq]
  refine ⟨_, rfl, fun entry hentry => ?_⟩
  obtain ⟨type, htype, rfl⟩ := List.mem_map.1 hentry
  refine ⟨(hdown type (List.mem_filter.1 htype).1).trimSlashes, fun dir hdir => ?_⟩
  exact hdown (type.1, dir) (mem_of_lookup hdir)

/-- Where nothing more can be visited, a load comes to its end. -/
theorem finish?_of_over (h : Over d settings root s) (limit : Nat) :
    (finish? d settings root limit s).isSome := by
  rw [finish?, step?_eq]
  cases hnext : s.visits.next? d root with
  | none => rfl
  | some next =>
      obtain ⟨fault, hfault⟩ := h next.1 next.2 hnext
      dsimp only [Option.map_some]
      rw [hfault]
      rfl

/-- Where nothing is left to visit, the tree is there. -/
theorem finish?_of_next? (h : s.visits.next? d root = none) (limit : Nat) :
    finish? d settings root limit s = some (.ok s.builder.tree) := by
  rw [finish?, step?_eq, h]
  rfl

/-- On a disk whose manifests have no steps up, a load makes finitely many visits,
whatever types are declared how often by whom. It then stops at a manifest that
cannot be read, or nothing is left to visit and the tree is there. -/
theorem visits_exhausted {primary : Manifest} (hdisk : d.Sound)
    (hprimary : ∀ entry ∈ primary.pluginTypes, (".." : Text) ∉ Text.splitSlash entry.2)
    (hfound : Downward d settings root) :
    ∃ visits last, Run d settings root (start settings primary) visits last
      ∧ (∀ limit, visits.length ≤ limit →
        (finish? d settings root limit (start settings primary)).isSome)
      ∧ ((∀ dir, ∃ found, manifestIn d settings root dir = .ok found) →
        last.visits.next? d root = none
        ∧ ∀ limit, visits.length ≤ limit →
          finish? d settings root limit (start settings primary)
            = some (.ok last.builder.tree)) := by
  obtain ⟨waiting, hstart, hwaiting⟩ := deep_start settings hprimary
  obtain ⟨visits, last, hrun, hover⟩ := ends_rounds hdisk hfound hwaiting
  rw [← hstart] at hrun
  refine ⟨visits, last, hrun, fun limit hlimit => ?_, fun hread => ?_⟩
  · obtain ⟨left, rfl⟩ := Nat.exists_eq_add_of_le hlimit
    rw [finish?_of_run hrun]
    exact finish?_of_over hover left
  · have hdone : last.visits.next? d root = none := by
      cases hnext : last.visits.next? d root with
      | none => rfl
      | some next =>
          obtain ⟨fault, hfault⟩ := hover next.1 next.2 hnext
          obtain ⟨found, hok⟩ := hread next.1.dir
          rw [hfault] at hok
          cases hok
    refine ⟨hdone, fun limit hlimit => ?_⟩
    obtain ⟨left, rfl⟩ := Nat.exists_eq_add_of_le hlimit
    rw [finish?_of_run hrun]
    exact finish?_of_next? hdone left

/-- A manifest that declares activity modules. -/
def modTypes : Bytes :=
  Bytes.ofText "\x7b\"plugintypes\": \x7b\"mod\": \"types\"\x7d\x7d"

/-- A module that declares its own type again, and a module of that type that does
so once more. -/
def nestedDisk : Disk where
  entries :=
    [(["code"], .directory), (["code", "mod"], .directory), (["code", "mod", "assign"], .directory),
      (["code", "mod", "assign", "db"], .directory),
      (["code", "mod", "assign", "db", "subplugins.json"], .file modTypes),
      (["code", "mod", "assign", "types"], .directory),
      (["code", "mod", "assign", "types", "quiz"], .directory),
      (["code", "mod", "assign", "types", "quiz", "db"], .directory),
      (["code", "mod", "assign", "types", "quiz", "db", "subplugins.json"], .file modTypes)]
  here := []
  temporarySuffix := []

/-- Activity modules only. -/
def modManifest : Manifest :=
  ⟨[("mod", "mod")], []⟩

theorem visits_exhausted_nested :
    nestedDisk.Sound ∧ Downward nestedDisk .default "code"
    ∧ (∀ dir, ∃ found, manifestIn nestedDisk .default "code" dir = .ok found)
    ∧ ∃ visits last, Run nestedDisk .default "code" (start .default modManifest) visits last
      ∧ last.visits.next? nestedDisk "code" = none
      ∧ finish? nestedDisk .default "code" visits.length (start .default modManifest)
        = some (.ok last.builder.tree) := by
  have hdisk : nestedDisk.Sound := by decide +kernel
  have hprimary : ∀ entry ∈ modManifest.pluginTypes, (".." : Text) ∉ Text.splitSlash entry.2 := by
    decide
  -- all files declare the same
  have hdeclared : declaredIn? modTypes = some ⟨[("mod", "types")], []⟩ := by decide +kernel
  have hfiles : ∀ place content, (place, Entry.file content) ∈ nestedDisk.entries →
      content = modTypes := by
    intro place content hmem
    simp [nestedDisk] at hmem
    rcases hmem with ⟨-, h⟩ | ⟨-, h⟩
    · exact h
    · exact h
  have hdownward : Downward nestedDisk .default "code" := by
    intro dir manifest hmanifest
    rcases manifestIn_cases nestedDisk .default "code" dir with hnone | ⟨place, content, hmem, hiff⟩
    · rw [hnone] at hmanifest
      cases hmanifest
    · have hfound := (hiff manifest).1 hmanifest
      rw [hfiles place content hmem, hdeclared] at hfound
      cases hfound
      decide
  have hread : ∀ dir, ∃ found, manifestIn nestedDisk .default "code" dir = .ok found := by
    intro dir
    rcases manifestIn_cases nestedDisk .default "code" dir with hnone | ⟨place, content, hmem, hiff⟩
    · exact ⟨none, hnone⟩
    · rw [hfiles place content hmem] at hiff
      exact ⟨_, (hiff _).2 hdeclared⟩
  obtain ⟨visits, last, hrun, -, hends⟩ :=
    visits_exhausted hdisk hprimary hdownward
  obtain ⟨hdone, hfinish⟩ := hends hread
  exact ⟨hdisk, hdownward, hread, visits, last, hrun, hdone, hfinish _ (Nat.le_refl _)⟩

end Loading

end ComponentPaths
