/-
Where the manifests of a load end up.

A load comes upon a plugin in a directory that waited for its type. But when
the manifest of the plugin is grafted, the plugin is sought where its type is
at that moment, and a type declared again has moved. The marks then go to a
directory that may not even be there, and the plugin with the manifest is not
marked at all. And a later visit may mark the same directory for another plugin
(`manifest_strayed`).

Nothing else can go wrong (`manifest_kept_iff`). All that a load does to the
tree are the insertions of its visits, one after the other (`Run.tree_eq`), so
what is at a directory is what the last of them has put there. That a plugin is
found in a directory that was once declared for its type is kept through the
whole run (`Run.discovered`), and so a plugin is sought where it was found as
long as no type is declared twice.
-/
import ComponentPaths.Proofs.Extract.Complete
import ComponentPaths.Proofs.Tree.Exhaustion

namespace ComponentPaths

open ComponentTree (splitDir insertInto lastMarker?)
open Relative (IsName)

-- ================================================================ segments

/-- There is nothing to drop where there is no separator. -/
theorem Text.dropWhile_slash {t : Text} (h : t.head? ≠ some '/') :
    t.dropWhile (· == '/') = t := by
  cases t with
  | nil => rfl
  | cons c t => exact List.dropWhile_cons_of_neg (by simpa using h)

/-- A plain directory has no separators around it. -/
theorem PlainPath.trimSlashes_eq {dir : Text} (h : PlainPath dir) : Text.trimSlashes dir = dir := by
  have hfirst := Path.isAbsolute_names h.isName
  have hlast := Path.getLast?_names h.isName
  rw [Text.joinSlash_splitSlash] at hfirst hlast
  unfold Path.isAbsolute at hfirst
  have hhead : dir.head? ≠ some '/' := by simpa using hfirst
  rw [← List.head?_reverse] at hlast
  unfold Text.trimSlashes Text.trimWhile Text.dropEndWhile
  rw [Text.dropWhile_slash hhead, Text.dropWhile_slash hlast, List.reverse_reverse]

/-- A plain directory has a segment of its own below any plugin. -/
theorem TreeBuilder.inside_ne_nil {declared : Text} (h : PlainPath declared) (pluginDir : Text) :
    inside pluginDir declared ≠ [] := by
  -- all parts of a text are segments if they are parts of a plain one
  have hkept : ∀ t, (∀ s ∈ Text.splitSlash t, IsName s) → splitDir t ≠ [] := by
    intro t ht
    rw [ComponentTree.splitDir_eq_filter, filter_void_names ht]
    exact Text.splitSlash_ne_nil t
  unfold inside
  rw [h.trimSlashes_eq]
  cases hrest : Text.dropHead? (pluginDir ++ ['/']) declared with
  | none => exact hkept declared h.isName
  | some rest =>
      refine hkept rest fun s hs => h.isName s ?_
      have heq := Text.dropHead?_eq_some_iff.1 hrest
      rw [List.append_assoc] at heq
      rw [heq]
      exact (Text.splitSlash_append_slash pluginDir rest) ▸ List.mem_append_right _ hs

-- ==================================================================== runs

namespace Loading

variable {d : Disk} {settings : Settings} {root : Text} {s last : Loading}
  {visits before later : List Visit} {v : Visit}

/-- All that a run does to the tree are the insertions of its visits. -/
theorem Run.tree_eq (h : Run d settings root s visits last) :
    last.builder.tree = insertInto s.builder.tree (visits.flatMap Visit.marks) := by
  induction h with
  | done s => rfl
  | visit yields reads run ih =>
      rw [ih, List.flatMap_cons, ComponentTree.insertInto_append]
      rfl

/-- The types are where they were, or where a visit has declared them. -/
theorem Run.typeDirs_eq (h : Run d settings root s visits last) :
    last.builder.typeDirs = (visits.flatMap Visit.declared).reverse ++ s.builder.typeDirs := by
  induction h with
  | done s => rfl
  | visit yields reads run ih =>
      rw [ih, List.flatMap_cons, List.reverse_append, List.append_assoc]
      rfl

/-- A visit parts a run into what comes before and what comes after it. -/
theorem Run.split (h : Run d settings root s (before ++ v :: later) last) :
    ∃ middle rest, Run d settings root s before middle ∧ v.builder = middle.builder
      ∧ Run d settings root (after settings v rest) later last := by
  induction before generalizing s with
  | nil =>
      cases h with
      | visit yields reads run => exact ⟨s, _, .done s, rfl, run⟩
  | cons first before ih =>
      cases h with
      | visit yields reads run =>
          obtain ⟨middle, rest, hbefore, hbuilder, hlater⟩ := ih run
          exact ⟨middle, rest, .visit yields reads hbefore, hbuilder, hlater⟩

/-- Two runs after which nothing is left to visit are the same. -/
theorem Run.unique {visits' : List Visit} {last' : Loading}
    (h : Run d settings root s visits last) (hdone : last.visits.next? d root = none)
    (h' : Run d settings root s visits' last') (hdone' : last'.visits.next? d root = none) :
    visits = visits' ∧ last = last' := by
  induction h generalizing visits' with
  | done s =>
      cases h' with
      | done => exact ⟨rfl, rfl⟩
      | visit yields reads run =>
          rw [hdone] at yields
          cases yields
  | visit yields reads run ih =>
      cases h' with
      | done =>
          rw [hdone'] at yields
          cases yields
      | visit yields' reads' run' =>
          rw [yields] at yields'
          cases yields'
          rw [reads] at reads'
          cases reads'
          obtain ⟨hvisits, hlast⟩ := ih hdone run'
          exact ⟨congrArg _ hvisits, hlast⟩

-- =============================================================== discovery

/-- A plugin is in a directory that was declared for its type. -/
structure Discovered (builder : TreeBuilder) (plugin : PluginDir) : Prop where
  isName : IsName plugin.name
  declared : ∃ dir, (plugin.type, dir) ∈ builder.typeDirs
    ∧ splitDir plugin.dir = splitDir dir ++ [plugin.name]

/-- A directory was declared for a type. -/
def Declared (builder : TreeBuilder) (entry : Text × Text) : Prop :=
  ∃ dir, (entry.1, dir) ∈ builder.typeDirs ∧ splitDir entry.2 = splitDir dir

/-- All that is to be visited was declared. -/
structure Listed (s : Loading) : Prop where
  current : ∀ plugin ∈ s.visits.current, Discovered s.builder plugin
  waiting : ∀ entry ∈ s.visits.waiting, Declared s.builder entry

theorem Declared.trimSlashes {builder : TreeBuilder} {entry : Text × Text}
    (h : entry ∈ builder.typeDirs) : Declared builder (entry.1, Text.trimSlashes entry.2) :=
  ⟨entry.2, h, ComponentTree.splitDir_trimSlashes entry.2⟩

theorem discovered_of_mem {builder : TreeBuilder} {entry : Text × Text} {plugin : PluginDir}
    (hdisk : d.Sound) (hentry : Declared builder entry)
    (h : plugin ∈ Visits.pluginsIn d root entry.1 entry.2) : Discovered builder plugin := by
  obtain ⟨dir, hdir, hsegments⟩ := hentry
  obtain ⟨htype, hplugin, -⟩ := Visits.mem_pluginsIn h
  have hname := hdisk.isName_plugin h
  refine ⟨hname, dir, htype ▸ hdir, ?_⟩
  rw [hplugin, ComponentTree.splitDir_append_slash, ComponentTree.splitDir_name hname, hsegments]

theorem listed_start (settings : Settings) (primary : Manifest) :
    Listed (start settings primary) := by
  unfold start
  rw [enqueueCapable_eq]
  refine ⟨List.forall_mem_nil _, fun entry hentry => ?_⟩
  obtain ⟨type, htype, rfl⟩ := List.mem_map.1 hentry
  exact Declared.trimSlashes (List.mem_filter.1 htype).1

/-- What a visit adds was declared by it. -/
theorem listed_after {rest : Visits} (hcurrent : ∀ p ∈ rest.current, Discovered v.builder p)
    (hwaiting : ∀ entry ∈ rest.waiting, Declared v.builder entry) :
    Listed (after settings v rest) := by
  have hmore : ∀ entry ∈ v.builder.typeDirs, entry ∈ v.grown.typeDirs :=
    fun entry hentry => List.mem_append_right _ hentry
  unfold after
  rw [enqueueCapable_eq]
  refine ⟨fun plugin hplugin => ?_, fun entry hentry => ?_⟩
  · obtain ⟨hname, dir, hdir, hsegments⟩ := hcurrent plugin hplugin
    exact ⟨hname, dir, hmore _ hdir, hsegments⟩
  · rcases List.mem_append.1 hentry with hentry | hentry
    · obtain ⟨dir, hdir, hsegments⟩ := hwaiting entry hentry
      exact ⟨dir, hmore _ hdir, hsegments⟩
    · obtain ⟨type, htype, rfl⟩ := List.mem_map.1 hentry
      have hdeclared := List.mem_reverse.2 (List.mem_filter.1 htype).1
      exact Declared.trimSlashes (List.mem_append_left _ hdeclared)

/-- Every plugin of a run is in a directory that was declared for its type. -/
theorem Run.discovered (hdisk : d.Sound) (h : Run d settings root s visits last)
    (hs : Listed s) : ∀ v ∈ visits, Discovered v.builder v.plugin := by
  induction h with
  | done s => exact List.forall_mem_nil _
  | visit yields reads run ih =>
      obtain ⟨hplugin, hcurrent, hwaiting⟩ := Visits.forall_of_next?
        (fun entry hentry plugin => discovered_of_mem hdisk hentry) hs.current hs.waiting yields
      exact List.forall_mem_cons.2 ⟨hplugin, ih (listed_after hcurrent hwaiting)⟩

end Loading

-- ================================================================ the marks

namespace Visit

variable {v : Visit} {later : List Visit} {manifest : SubpluginManifest} {typeDir : Text}

/-- A plugin is found where its type is. -/
def InPlace (v : Visit) : Prop :=
  ∃ typeDir, v.builder.typeDirs.lookup v.plugin.type = some typeDir
    ∧ splitDir v.plugin.dir = splitDir typeDir ++ [v.plugin.name]

/-- No later visit has the last word on the directory of a plugin, unless it
says the same. -/
def Lasts (v : Visit) (later : List Visit) : Prop :=
  ∀ marker, lastMarker? (later.flatMap marks) (splitDir v.plugin.dir) = some marker →
    marker = .pluginRoot v.plugin.type v.plugin.name

/-- A visit marks the directory it was made in: the plugin is put there and stays
there, and all declared types are put below. -/
structure Kept (v : Visit) (tree : ComponentTree) : Prop where
  put : ∃ mark ∈ v.marks, splitDir mark.1 = splitDir v.plugin.dir
    ∧ mark.2 = .pluginRoot v.plugin.type v.plugin.name
  stays : tree.markerAt (splitDir v.plugin.dir)
    = some (.pluginRoot v.plugin.type v.plugin.name)
  below : ∀ entry ∈ v.declared,
    ∃ segment rest, splitDir entry.2 = splitDir v.plugin.dir ++ segment :: rest

theorem marks_eq (hfound : v.found = some manifest)
    (hknown : v.builder.typeDirs.lookup v.plugin.type = some typeDir) :
    v.marks = TreeBuilder.marks (TreeBuilder.pluginDir typeDir v.plugin.name) v.plugin.type
      v.plugin.name manifest := by
  unfold marks home?
  rw [hfound, hknown]
  rfl

theorem declared_eq (hfound : v.found = some manifest)
    (hknown : v.builder.typeDirs.lookup v.plugin.type = some typeDir) :
    v.declared
      = TreeBuilder.declaredDirs (TreeBuilder.pluginDir typeDir v.plugin.name) manifest := by
  unfold declared home?
  rw [hfound, hknown]
  rfl

/-- A plugin that is put where it was found was found where its type is. -/
theorem inPlace_of_put {mark : Text × Marker} (hname : IsName v.plugin.name)
    (hmark : mark ∈ v.marks) (hdir : splitDir mark.1 = splitDir v.plugin.dir)
    (hmarker : mark.2 = .pluginRoot v.plugin.type v.plugin.name) : v.InPlace := by
  unfold marks at hmark
  split at hmark
  · next manifest home hfound hhome =>
    obtain ⟨typeDir, hknown, rfl⟩ := Option.map_eq_some_iff.1 hhome
    rcases List.mem_cons.1 hmark with rfl | htype
    · refine ⟨typeDir, hknown, ?_⟩
      rw [← hdir, TreeBuilder.splitDir_pluginDir, ComponentTree.splitDir_name hname]
    · obtain ⟨entry, -, rfl⟩ := List.mem_map.1 htype
      cases hmarker
  · cases hmark

/-- Plain types are put below their plugin. -/
theorem below_of_plain {home : Text} (hplain : ∀ entry ∈ manifest.types, PlainPath entry.2) :
    ∀ entry ∈ TreeBuilder.declaredDirs home manifest,
      ∃ segment rest, splitDir entry.2 = splitDir home ++ segment :: rest := by
  intro entry hentry
  obtain ⟨declared, hdeclared, hsegments⟩ := TreeBuilder.mem_declaredDirs hentry
  have hinside := TreeBuilder.inside_ne_nil (hplain _ hdeclared) home
  obtain ⟨segment, rest, hcons⟩ := List.exists_cons_of_ne_nil hinside
  exact ⟨segment, rest, by rw [hsegments, hcons]⟩

/-- Among its own marks, the one of the plugin is the last on the plugin. -/
theorem lastMarker?_home {home type name : Text}
    (hplain : ∀ entry ∈ manifest.types, PlainPath entry.2) :
    lastMarker? (TreeBuilder.marks home type name manifest) (splitDir home)
      = some (.pluginRoot type name) := by
  have hnone : lastMarker? (TreeBuilder.typeMarks (TreeBuilder.declaredDirs home manifest))
      (splitDir home) = none := by
    rw [ComponentTree.lastMarker?_eq_none_iff]
    intro mark hmark
    obtain ⟨entry, hentry, rfl⟩ := List.mem_map.1 hmark
    obtain ⟨segment, rest, heq⟩ := below_of_plain hplain entry hentry
    show splitDir entry.2 ≠ splitDir home
    simp [heq]
  rw [TreeBuilder.lastMarker?_marks, hnone, if_pos rfl]
  rfl

/-- What is at the directory of a plugin after some more visits. -/
theorem markerAt_later (hordered : v.builder.tree.Ordered) (later : List Visit)
    (path : List Text) :
    (insertInto v.builder.tree ((v :: later).flatMap marks)).markerAt path
      = (lastMarker? (later.flatMap marks) path).or
          ((lastMarker? v.marks path).or (v.builder.tree.markerAt path)) := by
  rw [ComponentTree.markerAt_insertInto hordered, List.flatMap_cons,
    ComponentTree.lastMarker?_append, Option.or_assoc]

/-- A manifest with plain directories marks the directory it was found in just if
the type of the plugin is there and no later visit overwrites the mark. -/
theorem kept_iff (hordered : v.builder.tree.Ordered) (hname : IsName v.plugin.name)
    (hfound : v.found = some manifest) (hplain : ∀ entry ∈ manifest.types, PlainPath entry.2) :
    v.Kept (insertInto v.builder.tree ((v :: later).flatMap marks))
      ↔ v.InPlace ∧ v.Lasts later := by
  constructor
  · rintro ⟨⟨mark, hmark, hdir, hmarker⟩, hstays, -⟩
    refine ⟨inPlace_of_put hname hmark hdir hmarker, fun marker hlast => ?_⟩
    rw [markerAt_later hordered, hlast] at hstays
    exact Option.some.inj hstays
  · rintro ⟨⟨typeDir, hknown, hdir⟩, hlasts⟩
    have hhome : splitDir v.plugin.dir
        = splitDir (TreeBuilder.pluginDir typeDir v.plugin.name) := by
      rw [hdir, TreeBuilder.splitDir_pluginDir, ComponentTree.splitDir_name hname]
    refine ⟨?_, ?_, ?_⟩
    · rw [marks_eq hfound hknown, hhome]
      exact ⟨_, List.mem_cons_self, rfl, rfl⟩
    · unfold Lasts at hlasts
      rw [markerAt_later hordered]
      cases hlast : lastMarker? (later.flatMap marks) (splitDir v.plugin.dir) with
      | some marker =>
          rw [hlasts marker hlast]
          rfl
      | none =>
          rw [marks_eq hfound hknown, hhome, lastMarker?_home hplain]
          rfl
    · rw [declared_eq hfound hknown, hhome]
      exact below_of_plain hplain

end Visit

-- ==================================================================== loads

/-- With one directory for each type, any of them is the one. -/
theorem lookup_of_nodup {entries : List (Text × Text)} {type dir : Text}
    (hnodup : (entries.map Prod.fst).Nodup) (h : (type, dir) ∈ entries) :
    entries.lookup type = some dir := by
  obtain ⟨front, back, rfl⟩ := List.append_of_mem h
  refine List.lookup_eq_some_iff.2 ⟨front, back, rfl, fun other hother => ?_⟩
  rw [List.map_append, List.map_cons] at hnodup
  have hne := (List.nodup_append.1 hnodup).2.2 other.1 (List.mem_map_of_mem hother) type
    List.mem_cons_self
  simpa using hne.symm

namespace Loading

variable {d : Disk} {settings : Settings} {root : Text} {primary : Manifest} {last : Loading}
  {visits : List Visit}

/-- As long as no type is declared twice, plugins are found where their types are. -/
theorem Run.inPlace (hdisk : d.Sound) (h : Run d settings root (start settings primary) visits last)
    (honce : ((primary.pluginTypes ++ visits.flatMap Visit.declared).map Prod.fst).Nodup) :
    ∀ v ∈ visits, v.InPlace := by
  intro v hv
  obtain ⟨-, dir, hdir, hsegments⟩ := h.discovered hdisk (listed_start settings primary) v hv
  refine ⟨dir, lookup_of_nodup ?_ hdir, hsegments⟩
  -- the types known to a visit are those of the manifest and of the visits before
  obtain ⟨before, later, rfl⟩ := List.append_of_mem hv
  obtain ⟨middle, rest, hbefore, hbuilder, -⟩ := h.split
  rw [hbuilder, hbefore.typeDirs_eq]
  have hinitial : primary.pluginTypes ++ before.flatMap Visit.declared
      <+: primary.pluginTypes ++ (before ++ v :: later).flatMap Visit.declared := by
    rw [List.flatMap_append, ← List.append_assoc]
    exact List.prefix_append _ _
  have hperm : ((before.flatMap Visit.declared).reverse ++ primary.pluginTypes).Perm
      (primary.pluginTypes ++ before.flatMap Visit.declared) :=
    List.perm_append_comm.trans ((List.reverse_perm _).append_left _)
  exact (hperm.map _).nodup_iff.2 (honce.sublist (hinitial.sublist.map _))

/-- A load that gives a tree has made a run to its end. -/
theorem exists_run_of_load {limit : Nat} {tree : ComponentTree}
    (h : ComponentTree.loadWithin? limit d settings root = some (.ok tree)) :
    ∃ primary visits last,
      Manifest.load d (Path.join root settings.manifestPath) = .ok primary
      ∧ Run d settings root (start settings primary) visits last
      ∧ last.visits.next? d root = none ∧ tree = last.builder.tree := by
  obtain ⟨primary, hprimary, hfinish⟩ := ComponentTree.loadWithin?_eq_some_ok_iff.1 h
  obtain ⟨visits, last, hrun, hdone, htree⟩ := exists_run_of_finish? hfinish
  exact ⟨primary, visits, last, hprimary, hrun, hdone, htree⟩

/-- And a run to its end is all there is to a load, if the limit allows for it. -/
theorem loadWithin?_of_run {limit : Nat}
    (hprimary : Manifest.load d (Path.join root settings.manifestPath) = .ok primary)
    (hrun : Run d settings root (start settings primary) visits last)
    (hdone : last.visits.next? d root = none) (hlimit : visits.length ≤ limit) :
    ComponentTree.loadWithin? limit d settings root = some (.ok last.builder.tree) := by
  obtain ⟨left, rfl⟩ := Nat.exists_eq_add_of_le hlimit
  refine ComponentTree.loadWithin?_eq_some_ok_iff.2 ⟨primary, hprimary, ?_⟩
  rw [finish?_of_run hrun, finish?_of_next? hdone]

/-- A load makes a run, however long it is, and of each manifest with plain
directories that it finds there is a simple way to tell whether it marks the directory
it was found in: the type of its plugin is still there when the manifest is grafted,
and no later visit overwrites the mark. As long as no type is declared twice, no type
moves. -/
theorem manifest_kept_iff {limit : Nat} {tree : ComponentTree} (hdisk : d.Sound)
    (hload : ComponentTree.loadWithin? limit d settings root = some (.ok tree)) :
    ∃ primary visits last,
      Manifest.load d (Path.join root settings.manifestPath) = .ok primary
      ∧ Run d settings root (start settings primary) visits last
      ∧ last.visits.next? d root = none ∧ tree = last.builder.tree
      ∧ (∀ before v later manifest, visits = before ++ v :: later → v.found = some manifest →
        (∀ entry ∈ manifest.types, PlainPath entry.2) →
        (v.Kept tree ↔ v.InPlace ∧ v.Lasts later))
      ∧ (((primary.pluginTypes ++ visits.flatMap Visit.declared).map Prod.fst).Nodup →
        ∀ v ∈ visits, v.InPlace) := by
  obtain ⟨primary, visits, last, hprimary, hrun, hdone, htree⟩ := exists_run_of_load hload
  refine ⟨primary, visits, last, hprimary, hrun, hdone, htree,
    fun before v later manifest hvisits hfound hplain => ?_, hrun.inPlace hdisk⟩
  subst hvisits
  obtain ⟨middle, rest, hbefore, hbuilder, hlater⟩ := hrun.split
  have hname := (hrun.discovered hdisk (listed_start settings primary) v (by simp)).isName
  have hordered : v.builder.tree.Ordered := by
    rw [hbuilder, hbefore.tree_eq]
    exact ComponentTree.ordered_insertInto (ComponentTree.ordered_ofManifests primary []) _
  have hgrown : tree = insertInto v.builder.tree ((v :: later).flatMap Visit.marks) := by
    rw [htree, hlater.tree_eq, List.flatMap_cons, ComponentTree.insertInto_append]
    rfl
  rw [hgrown]
  exact Visit.kept_iff hordered hname hfound hplain

/-- A quiz module that declares a type, in a codebase of activity modules. -/
def quizEntries : List (Place × Entry) :=
  [(["code"], .directory), (["code", "lib"], .directory),
    (["code", "lib", "components.json"],
      .file (Bytes.ofText "\x7b\"plugintypes\": \x7b\"mod\": \"mod\"\x7d\x7d")),
    (["code", "mod"], .directory), (["code", "mod", "quiz"], .directory),
    (["code", "mod", "quiz", "db"], .directory),
    (["code", "mod", "quiz", "db", "subplugins.json"],
      .file (Bytes.ofText "\x7b\"plugintypes\": \x7b\"quizreport\": \"report\"\x7d\x7d"))]

def quizDisk (others : List (Place × Entry)) : Disk where
  entries := others ++ quizEntries
  here := []
  temporarySuffix := []

/-- The visit of the quiz module, as a plugin of some type. -/
def quizVisit (type : Text) (builder : TreeBuilder) : Visit :=
  ⟨builder, ⟨type, "quiz", "mod/quiz"⟩, some ⟨[("quizreport", "report")], []⟩⟩

theorem run_quiz : Run (quizDisk []) .default "code" (start .default modManifest)
    [quizVisit "mod" (.ofManifest modManifest)]
    (after .default (quizVisit "mod" (.ofManifest modManifest)) ⟨[], []⟩) := by
  refine .visit ?_ ?_ (.done _)
  · decide +kernel
  · decide +kernel

theorem manifest_kept_iff_quiz :
    (quizDisk []).Sound
    ∧ ∃ tree, ComponentTree.loadWithin? 1 (quizDisk []) .default "code" = some (.ok tree)
      ∧ (quizVisit "mod" (.ofManifest modManifest)).Kept tree := by
  have hdisk : (quizDisk []).Sound := by decide +kernel
  have hmod : Manifest.load (quizDisk []) "code/lib/components.json" = .ok modManifest := by
    decide +kernel
  have hload := loadWithin?_of_run hmod run_quiz (by decide +kernel) (Nat.le_refl 1)
  obtain ⟨primary, visits, last, hprimary, hrun, hdone, -, hkept, hplace⟩ :=
    manifest_kept_iff hdisk hload
  have hsame : primary = modManifest := Except.ok.inj (hprimary.symm.trans hmod)
  subst hsame
  obtain ⟨rfl, -⟩ := hrun.unique hdone run_quiz (by decide +kernel)
  have hinPlace := hplace (by decide) _ (List.mem_singleton_self _)
  refine ⟨hdisk, _, hload, (hkept [] _ [] _ rfl rfl (by decide)).2 ⟨hinPlace, ?_⟩⟩
  intro marker hlast
  cases hlast

/-- A codebase with an assignment module as well, which declares activity modules. -/
def movedDisk : Disk :=
  quizDisk [(["code", "mod", "assign"], .directory), (["code", "mod", "assign", "db"], .directory),
    (["code", "mod", "assign", "db", "subplugins.json"], .file modTypes)]

/-- The visit of the assignment module. -/
def assignVisit : Visit :=
  ⟨.ofManifest modManifest, ⟨"mod", "assign", "mod/assign"⟩, some ⟨[("mod", "types")], []⟩⟩

theorem run_moved : Run movedDisk .default "code" (start .default modManifest)
    [assignVisit, quizVisit "mod" assignVisit.grown]
    (after .default (quizVisit "mod" assignVisit.grown) ⟨[], [("mod", "mod/assign/types")]⟩) := by
  have hmodules : Visits.pluginsIn movedDisk "code" "mod" "mod"
      = [⟨"mod", "assign", "mod/assign"⟩, ⟨"mod", "quiz", "mod/quiz"⟩] := by
    have hnames : (movedDisk.subdirectories (Path.join "code" "mod")).filter
        (fun n => n.head? != some '.') = [("assign" : Text), ("quiz" : Text)] := by decide +kernel
    unfold Visits.pluginsIn Text.sort
    dsimp only
    rw [hnames, List.mergeSort_of_pairwise (by decide)]
    rfl
  have hyields : (start .default modManifest).visits.next? movedDisk "code"
      = some (⟨"mod", "assign", "mod/assign"⟩, ⟨[⟨"mod", "quiz", "mod/quiz"⟩], []⟩) := by
    show Visits.next? movedDisk "code" ⟨[], [("mod", "mod")]⟩ = _
    rw [Visits.next?_waiting, hmodules]
    rfl
  refine .visit hyields ?_ (.visit ?_ ?_ (.done _))
  · decide +kernel
  · decide +kernel
  · decide +kernel

/-- Two types that share a directory. -/
def sharedManifest : Manifest :=
  ⟨[("mod", "mod"), ("tool", "mod")], []⟩

/-- The assignment module is visited first and moves the type of activity modules.
The quiz module is then marked where the type is now, though it was found, with its
manifest, where the type had been. And a plugin of two types is visited twice and
marked for the second of them only. -/
theorem manifest_strayed :
    (∃ tree, ComponentTree.load movedDisk .default "code" = .ok tree
      ∧ (∃ last, Run movedDisk .default "code" (start .default modManifest)
        [assignVisit, quizVisit "mod" assignVisit.grown] last)
      ∧ tree.markerAt ["mod", "quiz"] = none
      ∧ tree.markerAt ["mod", "assign", "types", "quiz"] = some (.pluginRoot "mod" "quiz"))
    ∧ ∃ first last, Run (quizDisk []) .default "code" (start .default sharedManifest)
        [quizVisit "mod" first, quizVisit "tool" (quizVisit "mod" first).grown] last
      ∧ last.builder.tree.markerAt ["mod", "quiz"] = some (.pluginRoot "tool" "quiz") := by
  constructor
  · have hmod : Manifest.load movedDisk "code/lib/components.json" = .ok modManifest := by
      decide +kernel
    refine ⟨_, ComponentTree.load_eq_ok_iff.2
      (loadWithin?_of_run hmod run_moved (by decide +kernel) (by decide)), ⟨_, run_moved⟩, ?_, ?_⟩
    · decide +kernel
    · decide +kernel
  · have hyields : (start .default sharedManifest).visits.next? (quizDisk []) "code"
        = some (⟨"mod", "quiz", "mod/quiz"⟩, ⟨[], [("tool", "mod")]⟩) := by decide +kernel
    have hagain : Visits.next? (quizDisk []) "code" ⟨[], [("tool", "mod")]⟩
        = some (⟨"tool", "quiz", "mod/quiz"⟩, ⟨[], []⟩) := by decide +kernel
    have hreads : manifestIn (quizDisk []) .default "code" "mod/quiz"
        = .ok (some ⟨[("quizreport", "report")], []⟩) := by decide +kernel
    refine ⟨_, _, .visit hyields hreads (.visit hagain hreads (.done _)), ?_⟩
    decide +kernel

end Loading

end ComponentPaths
