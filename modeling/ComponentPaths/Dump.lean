/-
Syntax dumps: the JSON that a PHP parser prints for a file, lowered into an
arena.

Every object with a `nodeType` becomes a node, in document order, which is
also the order of the source. Positions may be missing or wrong; a node then
starts where its parent does, and every span ends within the file.
-/
import ComponentPaths.Arena.Basic
import ComponentPaths.Json.Value

namespace ComponentPaths

/-- Why a dump cannot be used. -/
inductive DumpError where
  | notJson
  | noStatements
  deriving DecidableEq, Repr

/-- The text of a dump error. -/
def DumpError.message : DumpError → Text
  | .notJson => "AST dump is not valid JSON"
  | .noStatements => "AST dump holds no statements"

namespace Dump

open Arena (Kind)

/-- The members of a node's object. -/
abbrev Members := List (Text × Json)

-- ===================================================================== fields

/-- A member. -/
def field? (members : Members) (key : Text) : Option Json :=
  members.lookup key

/-- A member that is a string. -/
def stringField? (members : Members) (key : Text) : Option Text :=
  (field? members key).bind Json.asString?

/-- The text of a name: in newer dumps one string, in older ones its parts. -/
def nameText? (members : Members) : Option Text :=
  match field? members "name" with
  | some (.string text) => some text
  | _ =>
    ((field? members "parts").bind Json.asArray?).map fun parts =>
      Text.join ['\\'] (parts.filterMap Json.asString?)

/-- The types of node that are names. -/
def nameTypes : List Text :=
  ["Name", "Name_Relative", "Identifier", "VarLikeIdentifier"]

/-- The name a node spells. A fully qualified name starts with a backslash. -/
def nameOf? (members : Members) : Option Text :=
  match stringField? members "nodeType", nameText? members with
  | some type, some text =>
    if type = "Name_FullyQualified" then some ('\\' :: text)
    else if nameTypes.contains type then some text
    else none
  | _, _ => none

/-- The name under a key; none when it is computed. -/
def nameField? (members : Members) (key : Text) : Option Text :=
  ((field? members key).bind Json.asObject?).bind nameOf?

/-- A name without the mark of full qualification. -/
def unqualified (name : Text) : Text :=
  name.dropWhile (· == '\\')

/-- The text of the value of a literal. -/
def scalarText (members : Members) : Text :=
  match field? members "value" with
  | some (.string text) => text
  | some value => value.compact
  | none => []

-- ====================================================================== kinds

/-- The way a file is included. -/
def includeKind (members : Members) : Arena.IncludeKind :=
  .ofCode (((field? members "type").bind Json.asSigned?).getD 4)

/-- What makes the kind of a node from its members. -/
abbrev KindRule := Text × (Members → Kind)

/-- Expressions. -/
def expressionKinds : List KindRule :=
  [("Expr_Include", fun m => .inclusion (includeKind m)),
    ("Expr_BinaryOp_Concat", fun _ => .concat),
    ("Expr_FuncCall", fun m => .funcCall ((nameField? m "name").map unqualified)),
    ("Expr_MethodCall", fun m => .methodCall (nameField? m "name")),
    ("Expr_NullsafeMethodCall", fun m => .methodCall (nameField? m "name")),
    ("Expr_StaticCall", fun m => .staticCall (nameField? m "class") (nameField? m "name")),
    ("Expr_Variable", fun m => .variableRef (stringField? m "name")),
    ("Expr_PropertyFetch", fun m => .propertyFetch (nameField? m "name")),
    ("Expr_NullsafePropertyFetch", fun m => .propertyFetch (nameField? m "name")),
    ("Expr_StaticPropertyFetch",
      fun m => .staticPropertyFetch (nameField? m "class") (nameField? m "name")),
    ("Expr_ArrayDimFetch", fun _ => .arrayDimFetch),
    ("Expr_ConstFetch",
      fun m => .constFetch (((nameField? m "name").map unqualified).getD [])),
    ("Expr_ClassConstFetch",
      fun m => .classConstFetch (nameField? m "class") (nameField? m "name")),
    ("Expr_Ternary", fun _ => .ternary),
    ("Expr_Array", fun _ => .arrayLiteral),
    ("Expr_Assign", fun _ => .assign),
    ("Expr_AssignRef", fun _ => .assign)]

/-- Literals and magic constants; newer dumps have other names for some. -/
def scalarKinds : List KindRule :=
  [("Scalar_String", fun m => .stringLiteral (scalarText m)),
    ("Scalar_LNumber", fun m => .numberLiteral (scalarText m)),
    ("Scalar_Int", fun m => .numberLiteral (scalarText m)),
    ("Scalar_DNumber", fun m => .numberLiteral (scalarText m)),
    ("Scalar_Float", fun m => .numberLiteral (scalarText m)),
    ("Scalar_Encapsed", fun _ => .interpolatedString),
    ("Scalar_InterpolatedString", fun _ => .interpolatedString),
    ("Scalar_EncapsedStringPart", fun m => .interpolatedPart (scalarText m)),
    ("InterpolatedStringPart", fun m => .interpolatedPart (scalarText m)),
    ("Scalar_MagicConst_Dir", fun _ => .magicDir),
    ("Scalar_MagicConst_File", fun _ => .magicFile)]

/-- Statements and functions. -/
def statementKinds : List KindRule :=
  [("Stmt_Return", fun _ => .returnStatement),
    ("Stmt_Property", fun _ => .property),
    ("Stmt_ClassConst", fun _ => .constant),
    ("Stmt_Const", fun _ => .constant),
    ("Stmt_Function", fun _ => .functionLike),
    ("Stmt_ClassMethod", fun _ => .functionLike),
    ("Expr_Closure", fun _ => .functionLike),
    ("Expr_ArrowFunction", fun _ => .functionLike),
    ("Stmt_Global", fun _ => .globalStatement),
    ("Stmt_Expression", fun _ => .expressionStatement)]

/-- Arguments, items and names. -/
def partKinds : List KindRule :=
  [("Arg", fun _ => .arg),
    ("Param", fun _ => .param),
    ("Expr_ArrayItem", fun _ => .arrayItem),
    ("ArrayItem", fun _ => .arrayItem),
    ("Name", fun m => .name ((nameOf? m).getD [])),
    ("Name_FullyQualified", fun m => .name ((nameOf? m).getD [])),
    ("Name_Relative", fun m => .name ((nameOf? m).getD [])),
    ("Identifier", fun m => .identifier ((stringField? m "name").getD [])),
    ("VarLikeIdentifier", fun m => .identifier ((stringField? m "name").getD []))]

/-- The kind each type of node has, given its members. -/
def kinds : List KindRule :=
  expressionKinds ++ scalarKinds ++ statementKinds ++ partKinds

/-- The kind of a node of a type. -/
def kindOf (type : Text) (members : Members) : Kind :=
  match kinds.lookup type with
  | some build => build members
  | none => .other type

-- ================================================================== positions

/-- A position attribute. -/
def attribute? (members : Members) (key : Text) : Option Int :=
  ((field? members "attributes").bind (Json.member? key)).bind Json.asSigned?

/-- The span of a node in a file of a length; `fallback` is where it starts if
nothing says so. The end is given as the last byte. -/
def spanOf (length : Nat) (members : Members) (fallback : Nat) : Span :=
  let start :=
    match attribute? members "startFilePos" with
    | some position => if 0 ≤ position then min position.toNat length else fallback
    | none => fallback
  let stop :=
    match attribute? members "endFilePos" with
    | some position => if 0 ≤ position then max (min (position.toNat + 1) length) start else start
    | none => start
  ⟨start, stop⟩

/-- A line attribute, or else the line of an offset. -/
def lineOf (source : Bytes) (members : Members) (key : Text) (offset : Nat) : Nat :=
  match attribute? members key with
  | some line => if 0 < line then line.toNat else Bytes.lineNumber source offset
  | none => Bytes.lineNumber source offset

-- =================================================================== lowering

/-- The type of a node; empty when it is not a string. -/
def typeOf (members : Members) : Text :=
  (stringField? members "nodeType").getD []

/-- Whether an object is a node. -/
def isNode (members : Members) : Bool :=
  (field? members "nodeType").isSome

/-- Members that hold no nodes. -/
def isPlain (key : Text) : Bool :=
  key == "nodeType" || key == "attributes"

/-- The arena with one more node, for an object. -/
def pushNode (a : Arena) (parent : Option Nat) (role : Text) (fallback : Nat) (members : Members) :
    Arena :=
  let span := spanOf a.source.length members fallback
  a.push parent role (kindOf (typeOf members) members) span
    (lineOf a.source members "startLine" span.start) (lineOf a.source members "endLine" span.stop)

mutual

/-- The arena with the nodes of a value, below `parent` in the role `role`. -/
def lowerValue (parent : Option Nat) (role : Text) (fallback : Nat) : Json → Arena → Arena
  | .object members, a =>
    if isNode members then
      lowerFields a.size (spanOf a.source.length members fallback).start members
        (pushNode a parent role fallback members)
    else a
  | .array items, a => lowerItems parent role fallback items a
  | _, a => a

/-- The arena with the nodes of the items of an array. -/
def lowerItems (parent : Option Nat) (role : Text) (fallback : Nat) : List Json → Arena → Arena
  | [], a => a
  | item :: rest, a =>
    lowerItems parent role fallback rest (lowerValue parent role fallback item a)

/-- The arena with the nodes of the members of node `id`, which starts at `start`. -/
def lowerFields (id start : Nat) : List (Text × Json) → Arena → Arena
  | [], a => a
  | (key, value) :: rest, a =>
    lowerFields id start rest
      (if isPlain key then a else lowerValue (some id) key start value a)

end

/-- Whether a value can be a whole dump: a list of statements or one node. -/
def isDump : Json → Bool
  | .array _ => true
  | .object members => isNode members
  | _ => false

/-- The arena of a file and a value that dumps it. -/
def lowerJson (source : Bytes) (value : Json) : Except DumpError Arena :=
  if isDump value then .ok (lowerValue none "stmts" 0 value (Arena.empty source))
  else .error .noStatements

/-- The arena of a file and the text of its dump. -/
def lower (source : Bytes) (text : Text) : Except DumpError Arena :=
  match Json.ofText? text with
  | none => .error .notJson
  | some value => lowerJson source value

-- ==================================================================== printing

/-- What a parser prints before its dump. -/
def banner : Text := "==> JSON dump:"

/-- A text from its first bracket on, without the blanks after it. -/
def fromBracket (body : Text) : Text :=
  match body.dropWhile (fun c => c != '[' && c != '{') with
  | [] => Text.trim body
  | json => Text.trimEnd json

/-- The JSON part of what a parser prints: after the banner, from the first
bracket on. -/
def extract (output : Text) : Text :=
  fromBracket ((Text.afterFirst? banner output).getD output)

end Dump

end ComponentPaths
