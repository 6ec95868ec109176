/-
The component tree: who owns which directory.

The tree branches by directory segment. A node may carry one marker, which
says that a subsystem, a plugin type or a plugin has its root there. The last
marker put on a directory stays, children are in ascending order of their
segment, and so the marked directories come out in ascending order.
-/
import ComponentPaths.Component

namespace ComponentPaths

/-- What has its root at a directory. -/
inductive Marker where
  /-- A subsystem; without a name, core code that belongs to none. -/
  | subsystemRoot (name : Option Text)
  /-- The plugins of a type are the directories below. -/
  | pluginTypeRoot (type : Text)
  /-- A plugin that declares sub-plugins. -/
  | pluginRoot (type name : Text)
  deriving DecidableEq, Repr

/-- The component that owns a marked directory; a plugin type owns nothing. -/
def Marker.component? : Marker → Option Component
  | .subsystemRoot (some name) => some (.subsystem name)
  | .subsystemRoot none => some .coreLibrary
  | .pluginTypeRoot _ => none
  | .pluginRoot type name => some (.plugin type name)

/-- Whether a marker is the root of a plugin type. -/
def Marker.isPluginType : Marker → Bool
  | .pluginTypeRoot _ => true
  | _ => false

/-- A directory with its marker and the directories below it that matter. -/
inductive ComponentTree where
  | node (marker : Option Marker) (children : List (Text × ComponentTree))

namespace ComponentTree

/-- The tree without a marker. -/
def empty : ComponentTree :=
  .node none []

/-- The marker of the topmost directory. -/
def marker? : ComponentTree → Option Marker
  | .node marker _ => marker

/-- The directories right below the topmost one. -/
def children : ComponentTree → List (Text × ComponentTree)
  | .node _ children => children

/-- The directory with a name right below the topmost one. -/
def child? (tree : ComponentTree) (name : Text) : Option ComponentTree :=
  tree.children.lookup name

/-- How many directories right below the topmost one are plugin types. -/
def pluginTypeChildren (tree : ComponentTree) : Nat :=
  tree.children.countP fun child => child.2.marker?.any Marker.isPluginType

-- ================================================================ directories

/-- The segments of a directory: empty ones and single dots do not count. -/
def splitDir (dir : Text) : List Text :=
  (Text.splitSlash dir).filter fun s => !s.isEmpty && s != "."

/-- The tree at the end of a way down. -/
def descend? : List Text → ComponentTree → Option ComponentTree
  | [], tree => some tree
  | name :: rest, tree => (tree.child? name).bind (descend? rest)

/-- The tree at a directory. -/
def lookup? (tree : ComponentTree) (dir : Text) : Option ComponentTree :=
  descend? (splitDir dir) tree

/-- The child with a name replaced, or put in its place in the order. -/
def alterChild {α : Type} (name : Text) (change : Option α → α) :
    List (Text × α) → List (Text × α)
  | [] => [(name, change none)]
  | (other, child) :: rest =>
    if name = other then (other, change (some child)) :: rest
    else if Text.notAfter name other then (name, change none) :: (other, child) :: rest
    else (other, child) :: alterChild name change rest

/-- The tree with a marker at the end of a way down. -/
def mark : List Text → Marker → ComponentTree → ComponentTree
  | [], marker, .node _ children => .node (some marker) children
  | name :: rest, marker, .node old children =>
    .node old (alterChild name (fun child => mark rest marker (child.getD empty)) children)

/-- The tree with a marker at a directory. -/
def insert (tree : ComponentTree) (dir : Text) (marker : Marker) : ComponentTree :=
  mark (splitDir dir) marker tree

mutual

/-- The marked directories of the tree at `path`, in ascending order. -/
def markedFrom (path : List Text) : ComponentTree → List (List Text × Marker)
  | .node marker children =>
    (marker.toList.map fun m => (path, m)) ++ markedBelow path children

/-- The marked directories of some children of `path`. -/
def markedBelow (path : List Text) : List (Text × ComponentTree) → List (List Text × Marker)
  | [] => []
  | (name, tree) :: rest => markedFrom (path ++ [name]) tree ++ markedBelow path rest

end

/-- Every marked directory as its segments, in ascending order. -/
def marked (tree : ComponentTree) : List (List Text × Marker) :=
  markedFrom [] tree

/-- Every marked directory, in ascending order of the segments. -/
def markedDirs (tree : ComponentTree) : List (Text × Marker) :=
  tree.marked.map fun (path, marker) => (Text.joinSlash path, marker)

/-- The first directory with a marker. -/
def dirOf? (tree : ComponentTree) (marker : Marker) : Option Text :=
  (tree.markedDirs.find? fun entry => entry.2 == marker).map Prod.fst

-- ================================================================= components

/-- The directory of core code that belongs to no subsystem. -/
def coreLibraryDir : Text := "lib"

/-- The directory of a plugin type. -/
def pluginTypeDir? (tree : ComponentTree) (type : Text) : Option Text :=
  tree.dirOf? (.pluginTypeRoot type)

/-- The directory of a component. A plugin has its own below its type's. -/
def componentDir? (tree : ComponentTree) : Component → Option Text
  | .root => some []
  | .coreLibrary => some coreLibraryDir
  | .subsystem name => tree.dirOf? (.subsystemRoot (some name))
  | .plugin type name => (tree.pluginTypeDir? type).map fun dir => dir ++ '/' :: name

/-- The directories of plugin types strictly below a directory. -/
def nestedPluginTypeDirs (tree : ComponentTree) (dir : Text) : List Text :=
  let below := Text.dropEndWhile (· == '/') dir ++ ['/']
  (tree.markedDirs.filter fun entry => entry.2.isPluginType && below.isPrefixOf entry.1).map
    Prod.fst

end ComponentTree

end ComponentPaths
