/-
Contributions: what each node adds to the path that its expression builds.

A literal contributes its text, the root field of the configuration variable
contributes the root, and a value that is not known contributes a
placeholder with the code that computes it. Concatenations contribute what
their operands do, in order. A kind of node without a rule contributes
nothing.

The rules read the contributions of other nodes through a function, and only
those of nodes below.
-/
import ComponentPaths.PathExpression.Mark
import ComponentPaths.Symbolic.Expression
import ComponentPaths.Symbolic.Normal

namespace ComponentPaths.Contribution

open Arena (Kind)

variable (a : Arena) (value : Nat → Text)

-- ================================================================== rendering

/-- The value inside an argument; any other node is itself. -/
def operand (id : Nat) : Nat :=
  match a.kind id with
  | .arg => (a.childByRole? id "value").getD id
  | _ => id

/-- The code for a contribution that is not empty. Text that mentions the root
cannot be code and stays as it is. -/
def renderValue (contribution : Text) : Text :=
  if Symbolic.isLiteral contribution then Symbolic.quote contribution
  else
    match Symbolic.singlePlaceholder? contribution with
    | some inner => inner
    | none => (Symbolic.toExpression? contribution).getD contribution

/-- The code for an operand inside a placeholder. -/
def render (id : Nat) : Text :=
  let inner := operand a id
  match a.kind inner with
  | .numberLiteral text => text
  | .stringLiteral text => Symbolic.quote text
  | _ => if (value inner).isEmpty then a.trimmedText inner else renderValue (value inner)

/-- The code for the child in a role; nothing when it is missing. -/
def renderRole (id : Nat) (role : Text) : Text :=
  match a.childByRole? id role with
  | some child => render a value child
  | none => []

/-- The code for the arguments of a call. -/
def renderArgs (call : Nat) : Text :=
  Text.join ", " ((a.childrenByRole call "args").map (render a value))

/-- A name, or else the source text of the child that computes it. -/
def nameOr (id : Nat) (role : Text) : Option Text → Text
  | some name => name
  | none =>
    match a.childByRole? id role with
    | some child => a.trimmedText child
    | none => []

-- ==================================================================== dirname

/-- One level up. The directory above the root is written out. -/
def levelUp? (path : Text) : Option Text :=
  if path = "@" then some "@/.." else Symbolic.dropLastSegment? path

/-- Some levels up. -/
def levelsUp? : Nat → Text → Option Text
  | 0, path => some path
  | n + 1, path => (levelUp? path).bind (levelsUp? n)

/-- How many levels a call drops: its second argument if that is a number, and
one otherwise. -/
def levels (args : List Nat) : Nat :=
  match (args[1]?).bind (fun arg => a.childByRole? arg "value") with
  | some child =>
    match a.kind child with
    | .numberLiteral text => (Text.toWord? text).getD 1
    | _ => 1
  | none => 1

/-- What a path contributes once some levels are dropped. One level for each
segment reaches the directory above the root, and more would only repeat. -/
def dropLevels? (path : Text) (count : Nat) : Option Text :=
  let start := if Symbolic.isAnchored path then Symbolic.collapseDots path else path
  levelsUp? (min count (max (Symbolic.segments start).length 1)) start

/-- The contribution of a `dirname` call. A path without a separator is left
to the code. -/
def dirname (call : Nat) : Text :=
  let args := a.childrenByRole call "args"
  match args with
  | [] => []
  | path :: _ =>
    (dropLevels? (value path) (levels a args)).getD
      (Symbolic.placeholder ("dirname(" ++ renderArgs a value call ++ ")"))

-- ====================================================================== rules

/-- Path fields of the configuration variable. -/
def configFields : List (Text × Text) :=
  [("dirroot", "@"), ("libdir", "@/lib"), ("admin", "admin")]

/-- The contribution of the current directory. -/
def ofDir (file : Text) : Text :=
  let dir := Text.parentDir file
  if dir.isEmpty then "@" else "@/" ++ dir

/-- The contribution of a constant. -/
def ofConstant (name : Text) : Text :=
  if name = "DIRECTORY_SEPARATOR" then "/" else Symbolic.placeholder name

/-- The contribution of a fetched property. -/
def ofProperty (id : Nat) (name : Option Text) : Text :=
  match (Mark.configField? a id).bind fun field => configFields.lookup field with
  | some known => known
  | none =>
    let field :=
      match name with
      | some name => name
      | none =>
        match a.childByRole? id "name" with
        | some child => '{' :: render a value child ++ ['}']
        | none => []
    Symbolic.placeholder (renderRole a value id "var" ++ "->" ++ field)

/-- The contribution of a variable. The configuration variable adds nothing. -/
def ofVariable (id : Nat) : Option Text → Text
  | some name =>
    if name = Mark.configVariable then [] else Symbolic.placeholder ('$' :: name)
  | none => Symbolic.placeholder (a.trimmedText id)

/-- The contributions of the children, one after another. -/
def ofChildren (id : Nat) : Text :=
  (a.children id).flatMap value

/-- The contribution of a call with a callee. -/
def ofCall (id : Nat) (callee : Text) : Text :=
  Symbolic.placeholder (callee ++ "(" ++ renderArgs a value id ++ ")")

/-- The contribution of a node of the file `file`, given those of the nodes below. -/
def ofNode (file : Text) (id : Nat) : Text :=
  match a.kind id with
  | .stringLiteral text => text
  | .interpolatedPart text => text
  | .numberLiteral text => text
  | .magicDir => ofDir file
  | .magicFile => "@/" ++ file
  | .constFetch name => ofConstant name
  | .variableRef name => ofVariable a id name
  | .propertyFetch name => ofProperty a value id name
  | .staticPropertyFetch className name =>
    Symbolic.placeholder
      (nameOr a id "class" className ++ "::$" ++ name.getD (a.trimmedText id))
  | .arrayDimFetch =>
    Symbolic.placeholder
      (renderRole a value id "var" ++ "[" ++ renderRole a value id "dim" ++ "]")
  | .classConstFetch className name =>
    Symbolic.placeholder (nameOr a id "class" className ++ "::" ++ name.getD [])
  | .funcCall name =>
    if (a.kind id).isDirname then dirname a value id
    else ofCall a value id (nameOr a id "name" name)
  | .methodCall name =>
    ofCall a value id (renderRole a value id "var" ++ "->" ++ nameOr a id "name" name)
  | .staticCall className name =>
    ofCall a value id (nameOr a id "class" className ++ "::" ++ nameOr a id "name" name)
  | .ternary => Symbolic.placeholder ("(" ++ a.trimmedText id ++ ")")
  | .concat => ofChildren a value id
  | .interpolatedString => ofChildren a value id
  | .arg => ofChildren a value id
  | _ => []

end ComponentPaths.Contribution
