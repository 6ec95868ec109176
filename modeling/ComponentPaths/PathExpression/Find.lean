/-
Finding the path expressions of a file.

One walk over the file computes contributions from the bottom up, inside
marked expressions only, into a table with a place for each node. When the
walk leaves a marked expression, its contribution is complete, and its normal
form is the path it builds.
-/
import ComponentPaths.PathExpression.Basic
import ComponentPaths.PathExpression.Contribution

namespace ComponentPaths

namespace PathExpression

-- ==================================================================== the walk

/-- The state of the walk: the contributions so far, how many marked
expressions it is in, and the paths of those it has left. -/
structure Progress where
  table : Array (Option Text)
  depth : Nat
  found : List (Nat × Text)

namespace Progress

/-- The state before the walk. -/
def start (a : Arena) : Progress :=
  ⟨Array.replicate a.size none, 0, []⟩

/-- The contribution of a node, as far as it is known. -/
def value (p : Progress) (id : Nat) : Text :=
  match p.table[id]? with
  | some (some text) => text
  | _ => []

/-- The state after entering a node. -/
def enter (marks : List Nat) (p : Progress) (id : Nat) : Progress :=
  if marks.contains id then { p with depth := p.depth + 1 } else p

/-- The state after leaving a node. -/
def leave (a : Arena) (file : Text) (marks : List Nat) (p : Progress) (id : Nat) : Progress :=
  if p.depth = 0 then p
  else
    let text := Contribution.ofNode a p.value file id
    let table := p.table.setIfInBounds id (some text)
    if marks.contains id then
      ⟨table, p.depth - 1, p.found ++ [(id, Symbolic.normalize text (Text.parentDir file))]⟩
    else { p with table := table }

/-- The state after one event of the walk. -/
def step (a : Arena) (file : Text) (marks : List Nat) (p : Progress) : Arena.Event → Progress
  | .enter id => p.enter marks id
  | .leave id => p.leave a file marks id

end Progress

/-- The marked expressions of a file with the paths they build. -/
def paths (a : Arena) (file : Text) : List (Nat × Text) :=
  (a.walk.foldl (Progress.step a file (Mark.outermost a)) (Progress.start a)).found

-- =============================================================== surroundings

/-- The span of the smallest expression around a node, or else statement. -/
def containingSpan (a : Arena) (id : Nat) : Span :=
  match (a.nearestWhere? id Arena.Kind.isExpression).or
      (a.nearestWhere? id Arena.Kind.isStatement) with
  | some around => a.span around
  | none => a.span id

/-- The function around a node. -/
def functionAround? (a : Arena) (id : Nat) : Option Nat :=
  a.nearestWhere? id (· == .functionLike)

/-- Whether a node makes the configuration variable visible in a function. -/
def declaresConfig (a : Arena) (function id : Nat) : Bool :=
  a.kind id == .globalStatement && functionAround? a id == some function
    && (a.children id).any (a.isVariable Mark.configVariable)

/-- Whether the configuration variable is visible at a node: outside of
functions, and where the function declares it. -/
def configInScope (a : Arena) (id : Nat) : Bool :=
  match functionAround? a id with
  | none => true
  | some function => (a.descendants function).any (declaresConfig a function)

/-- Whether a node or one below it is the configuration variable. -/
def usesConfig (a : Arena) (id : Nat) : Bool :=
  (id :: a.descendants id).any (a.isVariable Mark.configVariable)

/-- What the surroundings of a node say. -/
def flagsOf (a : Arena) (id : Nat) : PathFlags where
  isInclude := a.hasParentWhere id Arena.Kind.isInclusion
  inConstantContext := a.isInsideWhere id Arena.Kind.isConstantContext
  rootConfigUsed := usesConfig a id
  rootConfigInScope := configInScope a id

/-- The path expression of a node with the path it builds. -/
def ofNode (a : Arena) (id : Nat) (symbolic : Text) : PathExpression where
  span := a.span id
  startLine := (a.node? id).elim 0 Arena.Node.startLine
  endLine := (a.node? id).elim 0 Arena.Node.endLine
  containing := containingSpan a id
  source := a.text id
  symbolic := symbolic
  flags := flagsOf a id

/-- The path expressions of a file, in document order; `file` is its path below
the root. -/
def find (a : Arena) (file : Text) : List PathExpression :=
  (paths a file).map fun (id, symbolic) => ofNode a id symbolic

end PathExpression

end ComponentPaths
