/-
The programs at hand, and how a name leads to one of them.

A name with a separator is a path name; any other is looked for where
programs are kept. What is found and is no program cannot be run.
-/
import ComponentPaths.Command.Shell.Interpreter

namespace ComponentPaths.Programs

/-- A program that may change the disk. It has nothing to read. -/
abbrev Runner := Disk → Text → List Text → Outcome × Disk

/-- The programs, scripts included. -/
def runner? (name : Text) : Option Runner :=
  if System.shells.contains name then some Shell.program
  else (System.programs.lookup name).map fun program d called args =>
    (program d called (.text []) args, d)

/-- The program that a path name leads to. -/
def atPath (d : Disk) (path : Text) : Except OsError Runner :=
  match d.locate path with
  | .error error => .error error
  | .ok place =>
    match (System.at? place).bind runner? with
    | some runner => .ok runner
    | none => if (d.entry? place).isSome then .error .permissionDenied else .error .noEntry

/-- The program of a name that is no path name. A name that stays where
programs are kept, or goes up from there, leads to a directory. -/
def ofName (name : Text) : Except OsError Runner :=
  match runner? name with
  | some runner => .ok runner
  | none =>
    if Disk.nameLimit < (Bytes.ofText name).length then .error .nameTooLong
    else if name = "." || name = ".." then .error .permissionDenied
    else .error .noEntry

/-- The program that is meant. -/
def find (d : Disk) (name : Text) : Except OsError Runner :=
  if name.contains '/' then atPath d name else ofName name

/-- The programs at hand. -/
def standard : Programs := fun d name args =>
  if (name :: args).any (·.contains '\x00') then .error .nulInCommand
  else
    let full := System.withEntries d
    match find full name with
    | .error error => .error error
    | .ok runner =>
      let (outcome, left) := runner full (Octets.ofText name) (args.map Octets.ofText)
      .ok (outcome.toCommandOutput (System.withoutEntries d left))

end ComponentPaths.Programs
