/-
Finding the files of a codebase.
-/
import ComponentPaths.Disk.Basic

namespace ComponentPaths.Discovery

/-- The path name of what some names lead to from a path name. -/
def pathOf (path : Text) (names : List Text) : Text :=
  names.foldl Path.join path

/-- The last name on the way to a file. -/
def lastName (path : Text) (names : List Text) : Text :=
  (Path.parts (pathOf path names)).getLastD []

/-- Whether a file holds PHP. -/
def isPhp (path : Text) (names : List Text) : Bool :=
  Path.extension? (lastName path names) == some ("php" : Text)

/-- The files at or below `dir` that hold PHP, as paths below `root`, in
ascending order. Directories with a name in `skipDirs` are not searched. -/
def phpFilesIn (d : Disk) (root dir : Text) (skipDirs : List Text) : List Text :=
  let skip (names : Place) : Bool := names.getLast?.any skipDirs.contains
  let files := (d.filesBelow dir skip).filter (isPhp dir)
  Text.sort (files.filterMap fun names => Path.relativeName? root (pathOf dir names))

/-- The PHP files of the codebase at `root`. -/
def phpFiles (d : Disk) (root : Text) (skipDirs : List Text) : List Text :=
  phpFilesIn d root root skipDirs

end ComponentPaths.Discovery
