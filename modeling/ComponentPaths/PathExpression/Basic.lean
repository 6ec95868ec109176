/-
Path expressions: the places of a file that build a path, with what is known
about each.
-/
import ComponentPaths.Span
import ComponentPaths.Text.Basic

namespace ComponentPaths

/-- What the surroundings of a path expression say about it. -/
structure PathFlags where
  /-- It is the operand of an include or require. -/
  isInclude : Bool
  /-- It stands where only constant expressions may: no calls there. -/
  inConstantContext : Bool
  /-- It reads the configuration variable. -/
  rootConfigUsed : Bool
  /-- The configuration variable is visible there. -/
  rootConfigInScope : Bool
  deriving DecidableEq, Repr

/-- One expression that builds a path. -/
structure PathExpression where
  span : Span
  startLine : Nat
  endLine : Nat
  /-- The smallest expression around it, or else statement. -/
  containing : Span
  source : Text
  /-- The path it builds, in normal form. -/
  symbolic : Text
  flags : PathFlags
  deriving DecidableEq, Repr

end ComponentPaths
