/-
Walks over an arena: down, as the events of entering and leaving each node,
and up, along the parents.

A child has a higher number than its parent, so a walk down ends where the
numbers do and a walk up ends at zero. Links that break this rule are not
followed.
-/
import ComponentPaths.Arena.Basic

namespace ComponentPaths.Arena

/-- What a walk passes. -/
inductive Event where
  | enter (id : Nat)
  | leave (id : Nat)
  deriving DecidableEq, Repr

/-- The walk through a node and everything below it. -/
def eventsFrom (a : Arena) (id : Nat) : List Event :=
  .enter id ::
    ((a.children id).flatMap fun child =>
      if id < child ∧ child < a.size then eventsFrom a child else [])
    ++ [.leave id]
termination_by a.size - id

/-- The walk through the whole file, root after root. -/
def walk (a : Arena) : List Event :=
  a.roots.flatMap a.eventsFrom

/-- The node an event enters. -/
def Event.entered? : Event → Option Nat
  | .enter id => some id
  | .leave _ => none

/-- The nodes of a walk, in the order of entering. -/
def entered (events : List Event) : List Nat :=
  events.filterMap Event.entered?

/-- Every node below a node, in order. -/
def descendants (a : Arena) (id : Nat) : List Nat :=
  (entered (a.eventsFrom id)).filter (· != id)

/-- The nodes above a node, nearest first. -/
def ancestors (a : Arena) (id : Nat) : List Nat :=
  match a.parent? id with
  | none => []
  | some parent => if parent < id then parent :: ancestors a parent else []
termination_by id

-- ================================================================== questions

/-- The nodes of some kinds, in document order. -/
def findWhere (a : Arena) (p : Kind → Bool) : List Nat :=
  (entered a.walk).filter fun id => p (a.kind id)

/-- The nearest node above that is of some kinds. -/
def nearestWhere? (a : Arena) (id : Nat) (p : Kind → Bool) : Option Nat :=
  (a.ancestors id).find? fun above => p (a.kind above)

/-- Whether some node above is of some kinds. -/
def isInsideWhere (a : Arena) (id : Nat) (p : Kind → Bool) : Bool :=
  (a.ancestors id).any fun above => p (a.kind above)

/-- Whether the parent is of some kinds. -/
def hasParentWhere (a : Arena) (id : Nat) (p : Kind → Bool) : Bool :=
  (a.parent? id).any fun parent => p (a.kind parent)

end ComponentPaths.Arena
