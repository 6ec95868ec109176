/-
Relative paths: the way from the directory of one file to another file.
-/
import ComponentPaths.Symbolic.Expression

namespace ComponentPaths.Relative

/-- How many leading segments two paths share. -/
def commonLength : List Text → List Text → Nat
  | a :: as, b :: bs => if a = b then commonLength as bs + 1 else 0
  | _, _ => 0

/-- The steps from a directory to a target, both below the root. Unless the
directory is the root, at least one step goes up. -/
def steps (sourceDir target : List Text) : List Text :=
  let shared := min (commonLength sourceDir target) (sourceDir.length - 1)
  List.replicate (sourceDir.length - shared) (".." : Text) ++ target.drop shared

/-- The relative path from a directory to a target. -/
def path (sourceDir target : List Text) : Text :=
  Text.joinSlash (steps sourceDir target)

/-- The expression for a path relative to the directory of the current file;
fails when the path holds the root. -/
def expression? (relative : Text) : Option Text :=
  (Symbolic.toExpression? ('/' :: relative)).map fun tail => "__DIR__ . " ++ tail

/-- The segments of the directory of a file. -/
def dirSegments (file : Text) : List Text :=
  (Text.splitSlash (Text.parentDir file)).filter fun s => !s.isEmpty

end ComponentPaths.Relative
