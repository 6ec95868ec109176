/-
The syntax arena of one file: its bytes and its nodes, which refer to each
other by number.

A node is added below a parent that is there already, so every child has a
higher number than its parent. Numbers are as large as need be: where they are
stored in 32 bits, an arena can have 4294967296 nodes before two of them share a
number (`Linked.toUInt32_exact`).
-/
import ComponentPaths.Arena.Kind
import ComponentPaths.Span
import ComponentPaths.Text.Blank
import ComponentPaths.Text.Bytes

namespace ComponentPaths

namespace Arena

/-- A node of the syntax tree. -/
structure Node where
  kind : Kind
  /-- The place this node has in its parent, such as `left` or `args`. -/
  role : Text
  span : Span
  startLine : Nat
  endLine : Nat
  parent : Option Nat
  children : List Nat
  deriving DecidableEq, Repr

end Arena

/-- The bytes of a file and its nodes. -/
structure Arena where
  source : Bytes
  nodes : Array Arena.Node
  roots : List Nat
  deriving DecidableEq, Repr

namespace Arena

/-- The arena of a file before any node. -/
def empty (source : Bytes) : Arena :=
  ⟨source, #[], []⟩

/-- How many nodes there are; also the number of the next node. -/
def size (a : Arena) : Nat :=
  a.nodes.size

/-- A node with one more child. -/
def Node.adopt (child : Nat) (n : Node) : Node :=
  { n with children := n.children ++ [child] }

/-- The arena with one more node, below `parent` or at the top. Its number is the
size before, which fits in 32 bits as long as that is below `UInt32.size`. -/
def push (a : Arena) (parent : Option Nat) (role : Text) (kind : Kind) (span : Span)
    (startLine endLine : Nat) : Arena :=
  let node : Node := ⟨kind, role, span, startLine, endLine, parent, []⟩
  match parent with
  | some p => { a with nodes := (a.nodes.modify p (Node.adopt a.size)).push node }
  | none => { a with nodes := a.nodes.push node, roots := a.roots ++ [a.size] }

/-- The arena with the end of a node moved. -/
def setEnd (a : Arena) (id stop endLine : Nat) : Arena :=
  { a with
    nodes := a.nodes.modify id fun n =>
      { n with span := { n.span with stop := stop }, endLine := endLine } }

-- ==================================================================== reading

/-- A node by number. -/
def node? (a : Arena) (id : Nat) : Option Node :=
  a.nodes[id]?

/-- The kind of a node. -/
def kind (a : Arena) (id : Nat) : Kind :=
  match a.node? id with
  | some n => n.kind
  | none => .other []

/-- The parent of a node. -/
def parent? (a : Arena) (id : Nat) : Option Nat :=
  (a.node? id).bind Node.parent

/-- The children of a node, in order. -/
def children (a : Arena) (id : Nat) : List Nat :=
  match a.node? id with
  | some n => n.children
  | none => []

/-- The span of a node. -/
def span (a : Arena) (id : Nat) : Span :=
  match a.node? id with
  | some n => n.span
  | none => ⟨0, 0⟩

/-- Whether a node has a role in its parent. -/
def hasRole (a : Arena) (role : Text) (id : Nat) : Bool :=
  (a.node? id).any fun n => n.role == role

/-- The first child in a role. -/
def childByRole? (a : Arena) (id : Nat) (role : Text) : Option Nat :=
  (a.children id).find? (a.hasRole role)

/-- The children in a role, in order. -/
def childrenByRole (a : Arena) (id : Nat) (role : Text) : List Nat :=
  (a.children id).filter (a.hasRole role)

/-- The numbers of all nodes. -/
def ids (a : Arena) : List Nat :=
  List.range a.size

/-- The bytes of a span, as far as they are in the file. -/
def slice (a : Arena) (s : Span) : Bytes :=
  let stop := min s.stop a.source.length
  (a.source.take stop).drop (min s.start stop)

/-- The source text of a node. -/
def text (a : Arena) (id : Nat) : Text :=
  Bytes.toTextLossy (a.slice (a.span id))

/-- The source text of a node without blanks around it. -/
def trimmedText (a : Arena) (id : Nat) : Text :=
  Text.trim (a.text id)

/-- Whether a node is a variable with a name. -/
def isVariable (a : Arena) (name : Text) (id : Nat) : Bool :=
  (a.kind id).isVariable name

end Arena

end ComponentPaths
