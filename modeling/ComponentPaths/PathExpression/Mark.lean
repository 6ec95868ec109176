/-
Marks: the nodes of a file where path expressions are.

An include has its operand marked. The magic constants for the current file
and directory and the path fields of the configuration variable have the
outermost expression marked that still builds a path from them: through
concatenations, interpolated strings and `dirname` calls. Of nested marks
only the outermost count.
-/
import ComponentPaths.Arena.Walk

namespace ComponentPaths.Mark

open Arena (Kind)

/-- The configuration variable. -/
def configVariable : Text := "CFG"

/-- Fields of the configuration variable that start a path. -/
def rootFields : List Text :=
  ["dirroot", "libdir"]

/-- The field of the configuration variable that a node fetches. -/
def configField? (a : Arena) (id : Nat) : Option Text :=
  match a.kind id with
  | .propertyFetch (some field) =>
    match a.childByRole? id "var" with
    | some base => if a.isVariable configVariable base then some field else none
    | none => none
  | _ => none

/-- Whether a node is assigned to. -/
def isAssignmentTarget (a : Arena) (id : Nat) : Bool :=
  a.hasParentWhere id (· == .assign) && a.hasRole "var" id

/-- The next larger expression that builds a path from the value of a node. -/
def outward? (a : Arena) (id : Nat) : Option Nat :=
  match a.parent? id with
  | none => none
  | some parent =>
    match a.kind parent with
    | .concat => some parent
    | .interpolatedString => some parent
    | .arg => (a.parent? parent).filter fun call => (a.kind call).isDirname
    | _ => none

/-- The outermost expression that builds a path from the value of a node; none
when that is assigned to. -/
def climb? (a : Arena) (id : Nat) : Option Nat :=
  if isAssignmentTarget a id then none
  else
    match outward? a id with
    | none => some id
    | some outer => if outer < id then climb? a outer else some id
termination_by id

/-- The mark that a node gives rise to. A magic constant on its own does not
depend on the root. -/
def markOf? (a : Arena) (id : Nat) : Option Nat :=
  match a.kind id with
  | .inclusion _ => a.childByRole? id "expr"
  | .magicDir => (climb? a id).filter (· != id)
  | .magicFile => (climb? a id).filter (· != id)
  | .propertyFetch _ =>
    if (configField? a id).any rootFields.contains then climb? a id else none
  | _ => none

/-- Every mark of a file. -/
def all (a : Arena) : List Nat :=
  (Arena.entered a.walk).filterMap (markOf? a)

/-- The marks that no other mark encloses. -/
def outermost (a : Arena) : List Nat :=
  let marks := all a
  marks.filter fun id => !(a.ancestors id).any marks.contains

end ComponentPaths.Mark
