/-
The component tree as a table of nodes, which refer to each other by number.

Number zero is the topmost directory. Going down to a directory takes one child
after the other; one that is not there yet is put at the end of the table and
gets the next number. The marked directories are listed with a stack of nodes
that are still to be looked at.

Nothing in a table says that its numbers make a tree: a child may have any
number. They do make one as long as a table is filled by insertions alone.
-/
import ComponentPaths.Tree.Basic

namespace ComponentPaths

/-- A directory in a table: its marker, and the numbers of the directories right
below it, in ascending order of their names. -/
structure TableNode where
  marker : Option Marker
  children : List (Text × Nat)
  deriving DecidableEq, Repr

/-- A directory without a marker and with nothing below it. -/
def TableNode.bare : TableNode :=
  ⟨none, []⟩

/-- A node with one more child. -/
def TableNode.adopt (name : Text) (child : Nat) (n : TableNode) : TableNode :=
  { n with children := ComponentTree.alterChild name (fun _ => child) n.children }

/-- Nodes by their numbers. -/
structure NodeTable where
  nodes : Array TableNode
  deriving DecidableEq, Repr

namespace NodeTable

/-- The topmost directory alone. -/
def empty : NodeTable :=
  ⟨#[.bare]⟩

/-- How many nodes there are; also the number of the next node. -/
def size (t : NodeTable) : Nat :=
  t.nodes.size

/-- A node by number. -/
def node? (t : NodeTable) (id : Nat) : Option TableNode :=
  t.nodes[id]?

/-- The marker of a node. -/
def marker? (t : NodeTable) (id : Nat) : Option Marker :=
  (t.node? id).bind TableNode.marker

/-- The children of a node. -/
def children (t : NodeTable) (id : Nat) : List (Text × Nat) :=
  match t.node? id with
  | some n => n.children
  | none => []

/-- The child of a node with a name. -/
def child? (t : NodeTable) (id : Nat) (name : Text) : Option Nat :=
  (t.children id).lookup name

/-- How many children of a node are plugin types. -/
def pluginTypeChildren (t : NodeTable) (id : Nat) : Nat :=
  (t.children id).countP fun child => (t.marker? child.2).any Marker.isPluginType

/-- The node at the end of a way down. -/
def descend? (t : NodeTable) : Nat → List Text → Option Nat
  | id, [] => some id
  | id, name :: rest => (t.child? id name).bind fun child => descend? t child rest

/-- The node of a directory. -/
def lookup? (t : NodeTable) (dir : Text) : Option Nat :=
  t.descend? 0 (ComponentTree.splitDir dir)

-- ================================================================== insertion

/-- The table with a new directory below a node. -/
def grow (t : NodeTable) (id : Nat) (name : Text) : NodeTable :=
  ⟨(t.nodes.push .bare).modify id (TableNode.adopt name t.size)⟩

/-- One step down from a node. A child that is not there is made. -/
def enter (t : NodeTable) (id : Nat) (name : Text) : NodeTable × Nat :=
  match t.child? id name with
  | some child => (t, child)
  | none => (t.grow id name, t.size)

/-- A way down from a node. -/
def reach (t : NodeTable) (id : Nat) : List Text → NodeTable × Nat
  | [] => (t, id)
  | name :: rest => (t.enter id name).1.reach (t.enter id name).2 rest

/-- The table with a marker on a node. -/
def setMarker (t : NodeTable) (id : Nat) (marker : Marker) : NodeTable :=
  ⟨t.nodes.modify id fun n => { n with marker := some marker }⟩

/-- The table with a marker at a directory. -/
def insert (t : NodeTable) (dir : Text) (marker : Marker) : NodeTable :=
  let (reached, id) := t.reach 0 (ComponentTree.splitDir dir)
  reached.setMarker id marker

-- ==================================================================== listing

/-- The name of a directory below another. Directly below the topmost one it
stands alone. -/
def childDir (dir name : Text) : Text :=
  if dir.isEmpty then name else dir ++ '/' :: name

/-- The stack with the children of a node on top. They are put there from the last
to the first, so that the first comes next. -/
def pushChildren (t : NodeTable) (id : Nat) (dir : Text) (stack : List (Nat × Text)) :
    List (Nat × Text) :=
  (t.children id).reverse.foldl
    (fun stack child => (child.2, childDir dir child.1) :: stack) stack

/-- The marked directories of the nodes on a stack, and of all that is put there on
the way; none when that takes more than `limit` nodes. -/
def listFrom? (t : NodeTable) : (limit : Nat) → List (Nat × Text) → Option (List (Text × Marker))
  | _, [] => some []
  | 0, _ :: _ => none
  | limit + 1, (id, dir) :: stack =>
    (listFrom? t limit (t.pushChildren id dir stack)).map fun rest =>
      ((t.marker? id).toList.map fun marker => (dir, marker)) ++ rest

/-- Every marked directory, with one look at each node. -/
def markedDirs? (t : NodeTable) : Option (List (Text × Marker)) :=
  t.listFrom? t.size [(0, [])]

end NodeTable

end ComponentPaths
