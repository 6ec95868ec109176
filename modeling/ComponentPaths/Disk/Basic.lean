/-
The disk: a finite tree of directories and files, as a value.

A place is the list of names that lead to it from the top. The disk keeps an
entry for each place but the top, which is always a directory. Path names are
followed the way an operating system does: every name on the way must be a
directory, a dot stays and two dots go up, and a separator at the end asks
for a directory. Names and whole path names have a greatest length in bytes,
and a path name with a NUL leads nowhere.
-/
import ComponentPaths.Disk.Path
import ComponentPaths.Fault
import ComponentPaths.Text.Bytes

namespace ComponentPaths

/-- Where something is: the names from the top. -/
abbrev Place := List Text

/-- The places on the way to a place, the start and the place itself included. -/
def Place.onTheWay : Place → List Place
  | [] => [[]]
  | name :: rest => [] :: (Place.onTheWay rest).map (name :: ·)

/-- What is at a place. -/
inductive Entry where
  | file (content : Bytes)
  | directory
  deriving DecidableEq, Repr

/-- Files and directories, and the directory that relative path names start from. -/
structure Disk where
  entries : List (Place × Entry)
  here : Place
  /-- What distinguishes the names of temporary files. -/
  temporarySuffix : Text
  deriving DecidableEq, Repr

namespace Disk

-- ===================================================================== places

/-- What is at a place. -/
def entry? (d : Disk) (place : Place) : Option Entry :=
  if place.isEmpty then some .directory else d.entries.lookup place

/-- The disk with an entry at a place. -/
def put (d : Disk) (place : Place) (entry : Entry) : Disk :=
  if d.entries.any (·.1 == place) then
    { d with entries := d.entries.map fun old => if old.1 == place then (place, entry) else old }
  else { d with entries := d.entries ++ [(place, entry)] }

/-- The disk without a place and everything below it. -/
def erase (d : Disk) (place : Place) : Disk :=
  { d with entries := d.entries.filter fun old => !place.isPrefixOf old.1 }

/-- The disk with directories on the way to a place. -/
def putParents (d : Disk) (place : Place) : Disk :=
  (Place.onTheWay place.dropLast).foldl
    (fun d above => if (d.entry? above).isSome then d else d.put above .directory) d

/-- The entries below a place, with the names that lead to them from there. -/
def below (d : Disk) (place : Place) : List (Place × Entry) :=
  d.entries.filterMap fun (other, entry) =>
    match Path.dropParts? place other with
    | some [] => none
    | some rest => some (rest, entry)
    | none => none

-- ================================================================= path names

/-- The greatest length of a name, in bytes. -/
def nameLimit : Nat := 255

/-- The greatest length of a path name, in bytes. -/
def pathLimit : Nat := 4095

/-- The place that some names lead to. The last one may be missing. -/
def follow (d : Disk) : Place → List Text → Except OsError Place
  | place, [] => .ok place
  | place, name :: rest =>
    match d.entry? place with
    | none => .error .noEntry
    | some (.file _) => .error .notDirectory
    | some .directory =>
      if Path.isVoid name then follow d place rest
      else if name = ".." then follow d place.dropLast rest
      else if nameLimit < (Bytes.ofText name).length then .error .nameTooLong
      else follow d (place ++ [name]) rest

/-- Where a path name starts. -/
def start (d : Disk) (path : Text) : Place :=
  if Path.isAbsolute path then [] else d.here

/-- Whether a path name can be followed at all. -/
def checkName (path : Text) : Except OsError Unit :=
  if path.contains '\x00' then .error .nulInName
  else if path.isEmpty then .error .noEntry
  else if pathLimit < (Bytes.ofText path).length then .error .nameTooLong
  else .ok ()

/-- The place of a path name. -/
def locate (d : Disk) (path : Text) : Except OsError Place :=
  match checkName path with
  | .error error => .error error
  | .ok () => d.follow (d.start path) (Text.splitSlash path)

/-- The directory that holds the last name of a path name, and that name.
Separators at the end do not count. -/
def locateLast (d : Disk) (path : Text) : Except OsError (Place × Text) :=
  match checkName path with
  | .error error => .error error
  | .ok () =>
    let names := Text.splitSlash (Text.dropEndWhile (· == '/') path)
    match d.follow (d.start path) (names.dropLast ++ [[]]) with
    | .error error => .error error
    | .ok place => .ok (place, names.getLastD [])

/-- The place of a name in a directory, which may be missing. -/
def locateIn (d : Disk) (place : Place) (name : Text) : Except OsError Place :=
  d.follow place [name]

/-- Whether a last name is an entry of its directory, and not the directory
itself or the one around it. -/
def isProper (name : Text) : Bool :=
  !(Path.isVoid name || name == "..")

/-- What a path name leads to. -/
def stat (d : Disk) (path : Text) : Except OsError Entry :=
  match d.locate path with
  | .error error => .error error
  | .ok place =>
    match d.entry? place with
    | some entry => .ok entry
    | none => .error .noEntry

/-- Whether something is there. -/
def exists? (d : Disk) (path : Text) : Bool :=
  match d.stat path with
  | .ok _ => true
  | .error _ => false

/-- Whether a file is there. -/
def isFile (d : Disk) (path : Text) : Bool :=
  match d.stat path with
  | .ok (.file _) => true
  | _ => false

/-- Whether a directory is there. -/
def isDir (d : Disk) (path : Text) : Bool :=
  match d.stat path with
  | .ok .directory => true
  | _ => false

/-- A path name that does not depend on where relative ones start. -/
def absolute (d : Disk) (path : Text) : Text :=
  if Path.isAbsolute path then path else Path.join ('/' :: Text.joinSlash d.here) path

-- ==================================================================== reading

/-- The content of a file. -/
def read (d : Disk) (path : Text) : Except IoError Bytes :=
  match d.stat path with
  | .ok (.file content) => .ok content
  | .ok .directory => .error (.os .isDirectory)
  | .error error => .error (.os error)

/-- The content of a file as text. -/
def readText (d : Disk) (path : Text) : Except IoError Text :=
  match d.read path with
  | .error error => .error error
  | .ok content =>
    match Bytes.toText? content with
    | some text => .ok text
    | none => .error .notText

/-- The names of the directories right below a directory; none if there is no
such directory. -/
def subdirectories (d : Disk) (path : Text) : List Text :=
  if d.isDir path then
    match d.locate path with
    | .error _ => []
    | .ok place =>
      (d.below place).filterMap fun
        | ([name], .directory) => some name
        | _ => none
  else []

/-- The files at or below a path name, each with the names that lead to it from
there. A directory that `skip` holds of is not entered. -/
def filesBelow (d : Disk) (path : Text) (skip : Place → Bool) : List Place :=
  match d.locate path, d.stat path with
  | .ok _, .ok (.file _) => [[]]
  | .ok place, .ok .directory =>
    (d.below place).filterMap fun
      | (names, .file _) => if (Place.onTheWay names.dropLast).any skip then none else some names
      | _ => none
  | _, _ => []

-- ==================================================================== writing

/-- A new directory. -/
def makeDir (d : Disk) (path : Text) : Except OsError Disk :=
  match d.locateLast path with
  | .error error => .error error
  | .ok (above, name) =>
    match d.locateIn above name with
    | .error error => .error error
    | .ok place =>
      match d.entry? place with
      | some _ => .error .alreadyExists
      | none => .ok (d.put place .directory)

/-- A directory that may be there already, given with the directories around
it, nearest first, that are made where they are missing. -/
def makeDirsAround : List Text → Disk → Except OsError Disk
  | [], d => .ok d
  | path :: around, d =>
    match d.makeDir path with
    | .ok made => .ok made
    | .error .noEntry =>
      match makeDirsAround around d with
      | .error error => .error error
      | .ok outer =>
        match outer.makeDir path with
        | .ok made => .ok made
        | .error error => if outer.isDir path then .ok outer else .error error
    | .error error => if d.isDir path then .ok d else .error error

/-- A directory with all directories on the way. -/
def makeDirs (d : Disk) (path : Text) : Except OsError Disk :=
  makeDirsAround (Path.enclosing path) d

/-- A file with a content, new or replaced. -/
def write (d : Disk) (path : Text) (content : Bytes) : Except OsError Disk :=
  match d.locateLast path with
  | .error error => .error error
  | .ok (above, name) =>
    if path.getLast? == some '/' then .error .isDirectory
    else
      match d.locateIn above name with
      | .error error => .error error
      | .ok place =>
        match d.entry? place with
        | some .directory => .error .isDirectory
        | _ => .ok (d.put place (.file content))

/-- A new name for a file, whose content is given. The name may be taken by
another file, but not by a directory. -/
def moveTo (d : Disk) (path : Text) (content : Bytes) : Except OsError Disk :=
  if path.contains '\x00' then .error .invalidArgument
  else
    match d.locateLast path with
    | .error error => .error error
    | .ok (above, name) =>
      if !isProper name then .error .busy
      else
        match d.locateIn above name with
        | .error error => .error error
        | .ok place =>
          if path.getLast? == some '/' then .error .notDirectory
          else
            match d.entry? place with
            | some .directory => .error .isDirectory
            | _ => .ok (d.put place (.file content))

/-- The directory for the temporary file beside a path name. -/
def temporaryDir (path : Text) : Text :=
  match Path.parent? path with
  | some [] => "."
  | some dir => dir
  | none => "."

/-- A file replaced as a whole: written beside it under a temporary name first,
then renamed. -/
def replace (d : Disk) (path : Text) (content : Bytes) : Except IoError Disk :=
  let temporary := Path.join (d.absolute (temporaryDir path)) (".tmp" ++ d.temporarySuffix)
  match d.locate temporary with
  | .error error => .error (.temporary error temporary)
  | .ok _ =>
    match d.moveTo path content with
    | .error error => .error (.os error)
    | .ok moved => .ok moved

end Disk

end ComponentPaths
