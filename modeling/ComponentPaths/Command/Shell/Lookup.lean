/-
Where commands are found: keywords, aliases, functions, builtin commands and
the programs of some directories.
-/
import ComponentPaths.Command.Shell.Argument
import ComponentPaths.Command.Shell.Reader
import ComponentPaths.Command.System

namespace ComponentPaths.Shell

open Run

-- ==================================================================== programs

/-- The directories that are always searched. -/
def standardPath : Text :=
  "/usr/local/sbin:/usr/local/bin:/usr/sbin:/usr/bin:/sbin:/bin"

/-- Why a program cannot be found, in the words of a script. -/
def programFault : OsError → Text
  | .noEntry | .notDirectory => "not found"
  | error => error.text

/-- The program at a path name, or the refusal to run it. -/
def programAt (d : Disk) (path : Text) : Except OsError Text :=
  let name := Octets.toText path
  match d.locate name, d.stat name with
  | .ok place, .ok _ =>
    match System.at? place with
    | some program => .ok program
    | none => .error .permissionDenied
  | .error error, _ => .error error
  | _, .error error => .error error

/-- The first directory that has a program: the path name and the program. What
is there and cannot be run is remembered as the reason. -/
def searchIn (d : Disk) (name : Text) : List Text → OsError → Except OsError (Text × Text)
  | [], error => .error error
  | dir :: rest, error =>
    let path := if dir.isEmpty then name else dir ++ '/' :: name
    match programAt d path with
    | .ok program => .ok (path, program)
    | .error .noEntry | .error .notDirectory => searchIn d name rest error
    | .error other => searchIn d name rest other

/-- The program of a name: where it is and which one. -/
def search (d : Disk) (path name : Text) : Except OsError (Text × Text) :=
  searchIn d name (splitColons path) .noEntry

/-- The directories that a script searches. -/
def currentPath : Run Text := do
  return (← lookup? "PATH").getD []

/-- The program that a name leads to, or why there is none and with which
status. A name that was found is remembered, unless other directories than
those of the script are searched. -/
def findProgram (otherPath : Option Text) (name : Text) : Run (Except (Text × Nat) Text) := do
  let d := (← get).disk
  if name.contains '/' then
    match programAt d name with
    | .ok program => return .ok program
    | .error .permissionDenied => return .error ("Permission denied", 126)
    | .error error => return .error (programFault error, 127)
  else
    let path ← currentPath
    match search d (otherPath.getD path) name with
    | .ok (found, program) =>
      if otherPath.isNone then
        modify fun s => { s with known := (name, found) :: s.known.filter (·.1 != name) }
      return .ok program
    | .error error => return .error (programFault error, 127)

-- ==================================================================== builtins

/-- Names of the builtin commands that are not special. -/
def plainBuiltins : List Text :=
  ["[", "alias", "bg", "cd", "chdir", "command", "echo", "false", "fg", "getopts", "hash", "jobs",
    "kill", "printf", "pwd", "read", "test", "true", "type", "ulimit", "umask", "unalias", "wait"]

/-- Whether a name is that of a special builtin command. -/
def isSpecialBuiltin (name : Text) : Bool :=
  Read.Tools.specialBuiltins.contains name

/-- Whether a name is that of a builtin command. -/
def isBuiltin (name : Text) : Bool :=
  plainBuiltins.contains name || isSpecialBuiltin name

/-- Builtin commands whose arguments can be assignments. -/
def assigns (name : Text) : Bool :=
  ["alias", "export", "local", "readonly"].any (·.toList == name)

-- ================================================================ descriptions

/-- What a name stands for, in words or as a command, and whether that is known.
`otherPath` are directories to search instead of those of the script. -/
def describe (inWords : Bool) (otherPath : Option Text) (name : Text) : Run (Text × Bool) := do
  let s ← get
  let path := otherPath.getD (← currentPath)
  let known (words : Text) : Text × Bool :=
    (if inWords then name ++ words ++ "\n" else name ++ "\n", true)
  if keywords.contains name then return known " is a shell keyword"
  else
    match s.aliases.lookup name with
    | some value =>
      return (if inWords then name ++ " is an alias for " ++ value ++ "\n"
        else "alias " ++ name ++ '=' :: inQuotes value ++ "\n", true)
    | none =>
      if (s.functions.lookup name).isSome && !isSpecialBuiltin name then
        return known " is a shell function"
      else if isSpecialBuiltin name then return known " is a special shell builtin"
      else if isBuiltin name then return known " is a shell builtin"
      else
        let tracked := if otherPath.isNone then s.known.lookup name else none
        let found : Except OsError Text :=
          match tracked with
          | some path => .ok path
          | none =>
            if name.contains '/' then (programAt s.disk name).map fun _ => name
            else (search s.disk path name).map (·.1)
        match found with
        | .ok path =>
          if otherPath.isNone && !name.contains '/' then
            modify fun s => { s with known := (name, path) :: s.known.filter (·.1 != name) }
          let words : Text := if tracked.isSome then " is a tracked alias for " else " is "
          return (if inWords then name ++ words ++ path ++ "\n" else path ++ "\n", true)
        | .error _ => return (if inWords then name ++ ": not found\n" else [], false)

/-- What names stand for, printed in words. -/
def showType (arguments : List Text) : Run Unit := do
  finish 0
  arguments.forM fun name => do
    let (text, isKnown) ← describe true none name
    emit 1 text
    if !isKnown then finish 127

/-- The options of `command` that only ask for a description, carried out. -/
def showCommand (arguments : List Text) : Run Unit := do
  let (letters, operands) ← readOptions "pvV" arguments
  match operands with
  | name :: _ =>
    if letters.contains 'v' || letters.contains 'V' then
      let path := if letters.contains 'p' then some standardPath else none
      let (text, isKnown) ← describe (letters.contains 'V') path name
      emit 1 text
      finish (if isKnown then 0 else 127)
    else finish 0
  | [] => finish 0

-- ============================================================== known programs

/-- The place of a name in a table with so many places. -/
def tablePlace (size : Nat) (name : Text) : Nat :=
  ((name.headD '\x00').toNat * 16 + (name.map Char.toNat).foldl (· + ·) 0) % 32768 % size

/-- Names with values in the order of a table with so many places; names of one
place keep their order. -/
def inTableOrder (size : Nat) (entries : List (Text × Text)) : List (Text × Text) :=
  (List.range size).flatMap fun place : Nat =>
    entries.filter fun (name, _) => tablePlace size name == place

/-- The command that remembers where programs are. -/
def hash (arguments : List Text) : Run Unit := do
  let (letters, names) ← readOptions "r" arguments
  finish 0
  if letters.contains 'r' then modify fun s => { s with known := [] }
  else if names.isEmpty then
    let entries := (← get).known.reverse
    emit 1 ((inTableOrder 31 entries).flatMap fun (_, path) => path ++ "\n")
  else
    names.forM fun name => do
      if !isBuiltin name && ((← get).functions.lookup name).isNone then
        match ← findProgram none name with
        | .ok _ => pure ()
        | .error (reason, _) => complain (name ++ ": " ++ reason) 1

/-- The command that gives words a meaning. -/
def aliasCommand (arguments : List Text) : Run Unit := do
  finish 0
  let shown (name value : Text) : Text := name ++ '=' :: inQuotes value ++ "\n"
  if arguments.isEmpty then
    let entries := inTableOrder 39 (← get).aliases
    emit 1 (entries.flatMap fun (name, value) => shown name value)
  else
    arguments.forM fun argument => do
      let start := argument.take 1
      match splitAssignment (argument.drop 1) with
      | (rest, some value) =>
        let name := start ++ rest
        modify fun s =>
          { s with
            aliases :=
              if (s.aliases.lookup name).isSome then
                s.aliases.map fun entry => if entry.1 == name then (name, value) else entry
              else s.aliases ++ [(name, value)] }
      | (_, none) =>
        match (← get).aliases.lookup argument with
        | some value => emit 1 (shown argument value)
        | none =>
          emit 2 ("alias: " ++ argument ++ " not found\n")
          finish 1

/-- The command that takes the meaning of words. -/
def unalias (arguments : List Text) : Run Unit := do
  let (letters, names) ← readOptions "a" arguments
  finish 0
  if letters.contains 'a' then modify fun s => { s with aliases := [] }
  else
    names.forM fun name => do
      if ((← get).aliases.lookup name).isSome then
        modify fun s => { s with aliases := s.aliases.filter (·.1 != name) }
      else
        emit 2 ("unalias: " ++ name ++ " not found\n")
        finish 1

end ComponentPaths.Shell
