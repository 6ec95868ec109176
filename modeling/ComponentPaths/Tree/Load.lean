/-
Loading the component tree of a codebase from its disk.

The primary manifest is read first. Then the plugins of the types that may
have sub-plugins are visited, directory by directory, and a plugin with a
sub-plugin manifest is grafted. Types that a graft declares are visited after
those already waiting.
-/
import ComponentPaths.Settings
import ComponentPaths.Tree.Builder

namespace ComponentPaths

-- ================================================================== manifests

/-- The primary manifest in a file. -/
def Manifest.load (d : Disk) (path : Text) : Except Fault Manifest :=
  match d.readText path with
  | .error error => .error (.manifestUnreadable path error.message)
  | .ok text => Manifest.ofText path text

/-- The sub-plugin manifest in a file; none when there is no such file. -/
def SubpluginManifest.load (d : Disk) (path : Text) : Except Fault (Option SubpluginManifest) :=
  if d.isFile path then
    match d.readText path with
    | .error error => .error (.manifestUnreadable path error.message)
    | .ok text => (SubpluginManifest.ofText path text).map some
  else .ok none

-- ==================================================================== visiting

/-- A plugin on disk: its type, its name and its directory below the root. -/
structure PluginDir where
  type : Text
  name : Text
  dir : Text
  deriving DecidableEq, Repr

/-- The plugins still to visit: those of the directory under way, then the
directories that wait, each with its plugin type. -/
structure Visits where
  current : List PluginDir
  waiting : List (Text × Text)
  deriving DecidableEq, Repr

namespace Visits

/-- Nothing to visit. -/
def empty : Visits :=
  ⟨[], []⟩

/-- One more directory with the plugins of a type. -/
def enqueue (v : Visits) (type dir : Text) : Visits :=
  { v with waiting := v.waiting ++ [(type, Text.trimSlashes dir)] }

/-- The plugins in a directory, in ascending order; hidden ones do not count. -/
def pluginsIn (d : Disk) (root type dir : Text) : List PluginDir :=
  let names := (d.subdirectories (Path.join root dir)).filter fun n => n.head? != some '.'
  (Text.sort names).map fun name => ⟨type, name, dir ++ '/' :: name⟩

/-- The first plugin of the directories that wait, and what is left after it. -/
def nextWaiting? (d : Disk) (root : Text) : List (Text × Text) → Option (PluginDir × Visits)
  | [] => none
  | (type, dir) :: waiting =>
    match pluginsIn d root type dir with
    | [] => nextWaiting? d root waiting
    | plugin :: rest => some (plugin, ⟨rest, waiting⟩)

/-- The next plugin, and what is left after it. -/
def next? (d : Disk) (root : Text) (v : Visits) : Option (PluginDir × Visits) :=
  match v.current with
  | plugin :: rest => some (plugin, ⟨rest, v.waiting⟩)
  | [] => nextWaiting? d root v.waiting

end Visits

-- ===================================================================== loading

/-- A tree under construction and the plugins still to visit. -/
structure Loading where
  builder : TreeBuilder
  visits : Visits

namespace Loading

/-- The plugin types that may have sub-plugins, added to what waits. -/
def enqueueCapable (settings : Settings) (v : Visits) (types : List (Text × Text)) : Visits :=
  types.foldl
    (fun v (type, dir) => if settings.supportsSubplugins type then v.enqueue type dir else v) v

/-- The state after the primary manifest. -/
def start (settings : Settings) (primary : Manifest) : Loading :=
  ⟨.ofManifest primary, enqueueCapable settings Visits.empty primary.pluginTypes⟩

/-- The state after the visit of one plugin. -/
def visit (d : Disk) (settings : Settings) (root : Text) (builder : TreeBuilder)
    (plugin : PluginDir) (rest : Visits) : Except Fault Loading :=
  let path := Path.join (Path.join root plugin.dir) settings.subpluginManifestPath
  match SubpluginManifest.load d path with
  | .error fault => .error fault
  | .ok none => .ok ⟨builder, rest⟩
  | .ok (some manifest) =>
    let (grown, grafted) := builder.graft plugin.type plugin.name manifest
    .ok ⟨grown, enqueueCapable settings rest grafted⟩

/-- The state after one more visit; none when there is nothing left to visit. -/
def step? (d : Disk) (settings : Settings) (root : Text) (s : Loading) :
    Option (Except Fault Loading) :=
  (s.visits.next? d root).map fun (plugin, rest) =>
    visit d settings root s.builder plugin rest

/-- The tree once nothing is left to visit; none when that takes more than
`limit` visits. -/
def finish? (d : Disk) (settings : Settings) (root : Text) :
    (limit : Nat) → Loading → Option (Except Fault ComponentTree)
  | limit, s =>
    match step? d settings root s with
    | none => some (.ok s.builder.tree)
    | some (.error fault) => some (.error fault)
    | some (.ok next) =>
      match limit with
      | 0 => none
      | left + 1 => finish? d settings root left next

/-- How many plugins a load visits before it is given up. Manifests whose directories
lead back up can ask for visits without end, and a codebase can be larger than this. -/
def visitLimit : Nat := 1000000

end Loading

namespace ComponentTree

/-- The component tree of the codebase at `root`; none when it takes more than `limit`
visits. -/
def loadWithin? (limit : Nat) (d : Disk) (settings : Settings) (root : Text) :
    Option (Except Fault ComponentTree) :=
  match Manifest.load d (Path.join root settings.manifestPath) with
  | .error fault => some (.error fault)
  | .ok primary => (Loading.start settings primary).finish? d settings root limit

/-- The component tree of the codebase at `root`. -/
def load (d : Disk) (settings : Settings) (root : Text) : Except Fault ComponentTree :=
  (loadWithin? Loading.visitLimit d settings root).getD
    (.error (.manifestUnreadable (Path.join root settings.manifestPath)
      "its plugin types are nested without end"))

end ComponentTree

end ComponentPaths
