/-
Path names: texts that name places on a disk.

A path name is absolute if it starts with a separator. Repeated separators
and single dots inside a path name do not count; a dot at its start does.
-/
import ComponentPaths.Text.Basic

namespace ComponentPaths.Path

/-- Whether a path name starts at the top. -/
def isAbsolute (path : Text) : Bool :=
  path.head? == some '/'

/-- A path name continued by another; an absolute one replaces it. -/
def join (base rest : Text) : Text :=
  if isAbsolute rest || base.isEmpty then rest
  else if base.getLast? == some '/' then base ++ rest
  else base ++ '/' :: rest

/-- Parts that do not count inside a path name. -/
def isVoid (part : Text) : Bool :=
  part.isEmpty || part == "."

/-- The parts of a path name that count; a separator stands for the top. -/
def parts (path : Text) : List Text :=
  match Text.splitSlash path with
  | [] => []
  | first :: rest =>
    let start : List Text :=
      if isAbsolute path then ["/"] else if first.isEmpty then [] else [first]
    start ++ rest.filter fun part => !isVoid part

/-- What remains of some parts after a beginning they share. -/
def dropParts? : (start all : List Text) → Option (List Text)
  | [], all => some all
  | _ :: _, [] => none
  | s :: start, a :: all => if s = a then dropParts? start all else none

/-- The path below `root`, with single separators; none for `root` itself and
for what is not below it. -/
def relativeName? (root path : Text) : Option Text :=
  match dropParts? (parts root) (parts path) with
  | none => none
  | some [] => none
  | some below => some (Text.joinSlash below)

/-- The parts without those at the end that do not count. -/
def dropVoidEnd (parts : List Text) : List Text :=
  (parts.reverse.dropWhile isVoid).reverse

/-- The path name of the directory that holds a place. The top has none. -/
def parent? (path : Text) : Option Text :=
  match Text.splitSlash path with
  | [] => none
  | first :: rest =>
    match dropVoidEnd rest with
    | [] => if first.isEmpty then none else some []
    | counted =>
      match dropVoidEnd counted.dropLast with
      | [] => some (if isAbsolute path then ['/'] else first)
      | kept => some (Text.joinSlash (first :: kept))

/-- The path name and those of the directories around it, nearest first, as far
as they are not empty. -/
def enclosing (path : Text) : List Text :=
  if path.isEmpty then []
  else
    match parent? path with
    | none => []
    | some parent => if parent.length < path.length then path :: enclosing parent else [path]
termination_by path.length

/-- The extension of a file name: what follows its last dot, unless that dot
comes first. -/
def extension? (name : Text) : Option Text :=
  match name.reverse.dropWhile (· != '.') with
  | _ :: before =>
    if name = ".." || before.isEmpty then none
    else some (name.reverse.takeWhile (· != '.')).reverse
  | [] => none

end ComponentPaths.Path
