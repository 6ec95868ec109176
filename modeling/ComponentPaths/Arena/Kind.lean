/-
Node kinds: the shapes of PHP syntax that take part in building a path. All
other syntax is one kind that only keeps its name.
-/
import ComponentPaths.Text.Basic

namespace ComponentPaths.Arena

/-- The four ways to include a file. -/
inductive IncludeKind where
  | include_
  | includeOnce
  | require
  | requireOnce
  deriving DecidableEq, Repr

/-- The number a syntax dump uses for each way; any other number is the last. -/
def IncludeKind.ofCode (code : Int) : IncludeKind :=
  if code = 1 then .include_
  else if code = 2 then .includeOnce
  else if code = 3 then .require
  else .requireOnce

/-- The kinds of node. A name is missing where the code computes it. -/
inductive Kind where
  | inclusion (how : IncludeKind)
  | concat
  | funcCall (name : Option Text)
  | methodCall (name : Option Text)
  | staticCall (className name : Option Text)
  | arg
  | variableRef (name : Option Text)
  | propertyFetch (name : Option Text)
  | staticPropertyFetch (className name : Option Text)
  | arrayDimFetch
  | stringLiteral (value : Text)
  | numberLiteral (value : Text)
  | interpolatedString
  | interpolatedPart (value : Text)
  | magicDir
  | magicFile
  | constFetch (name : Text)
  | classConstFetch (className name : Option Text)
  | ternary
  | arrayLiteral
  | arrayItem
  | returnStatement
  | assign
  /-- A property of a class; its default is a constant expression. -/
  | property
  /-- A constant of a class, or a global one. -/
  | constant
  | param
  /-- A function, method, closure or arrow function. -/
  | functionLike
  /-- A statement that makes global variables visible. -/
  | globalStatement
  | expressionStatement
  | name (value : Text)
  | identifier (value : Text)
  | other (type : Text)
  deriving DecidableEq, Repr

namespace Kind

/-- Expressions, as opposed to statements, arguments, names and the rest. -/
def isExpression : Kind → Bool
  | .arg | .arrayItem | .returnStatement | .property | .constant | .param | .functionLike
  | .globalStatement | .expressionStatement | .name _ | .identifier _ | .interpolatedPart _
  | .other _ => false
  | _ => true

/-- Statements. -/
def isStatement : Kind → Bool
  | .returnStatement | .property | .constant | .functionLike | .globalStatement
  | .expressionStatement => true
  | _ => false

/-- Kinds whose inside holds constant expressions only. -/
def isConstantContext : Kind → Bool
  | .property | .constant | .param => true
  | _ => false

/-- Whether a kind is an inclusion. -/
def isInclusion : Kind → Bool
  | .inclusion _ => true
  | _ => false

/-- Whether a kind is a variable with a name. -/
def isVariable (wanted : Text) : Kind → Bool
  | .variableRef (some n) => n == wanted
  | _ => false

/-- Whether a kind is a call that drops the last segment of a path. The names
of functions do not depend on case. -/
def isDirname : Kind → Bool
  | .funcCall (some n) => n.map Char.toLower == "dirname"
  | _ => false

end Kind

end ComponentPaths.Arena
