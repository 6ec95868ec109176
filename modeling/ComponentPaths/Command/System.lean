/-
The programs by their names, and what is always on a disk: where programs are
kept, and the places that every path name can start from.
-/
import ComponentPaths.Command.Operand

namespace ComponentPaths.System

/-- What `[` decides, with its own words about a missing end. -/
def bracket (d : Disk) (words : List Text) : Except Text Bool :=
  match words.getLast? with
  | some [']'] => Condition.test d words.dropLast
  | _ => .error "missing ']'"

/-- Programs that read nothing. -/
def utilities : List (Text × Program) :=
  [("true", Operand.ending 0), ("false", Operand.ending 1), ("echo", Operand.echo),
    ("printf", Operand.printf), ("sleep", Operand.sleep),
    ("test", Operand.condition Condition.test), ("[", Operand.condition bracket),
    ("basename", Operand.basename), ("dirname", Operand.dirname)]

/-- Programs that read files. -/
def filters : List (Text × Program) :=
  [("cat", Cat.program), ("head", Filter.head), ("tail", Filter.tail), ("tac", Filter.tac),
    ("sort", Filter.sort), ("wc", Filter.wc), ("tr", Filter.tr)]

/-- Programs, by their names, without those that run scripts. -/
def programs : List (Text × Program) :=
  utilities ++ filters

/-- Programs that run scripts. -/
def shells : List Text :=
  ["sh", "dash"]

/-- The names of all programs. -/
def names : List Text :=
  shells ++ programs.map (·.1)

/-- The directories with programs, in the order they are searched. -/
def directories : List Place :=
  [["usr", "bin"], ["bin"]]

/-- Other directories that are always there. -/
def otherDirectories : List Place :=
  [["usr"], ["dev"], ["etc"], ["home"], ["proc"], ["root"], ["sbin"], ["tmp"], ["var"]]

/-- The place where everything written is lost. -/
def nullDevice : Place :=
  ["dev", "null"]

/-- What is always on a disk. -/
def entries : List (Place × Entry) :=
  let files : List Place :=
    nullDevice :: directories.flatMap fun dir => names.map fun name => dir ++ [name]
  (otherDirectories ++ directories).map (·, Entry.directory) ++ files.map (·, Entry.file [])

/-- The disk with what is always there. -/
def withEntries (d : Disk) : Disk :=
  { d with entries := d.entries ++ entries.filter fun (place, _) => (d.entry? place).isNone }

/-- A disk as it was left, without what is always there and was not there before. -/
def withoutEntries (before after : Disk) : Disk :=
  let isAdded (e : Place × Entry) : Bool := (before.entry? e.1).isNone && entries.contains e
  { after with entries := after.entries.filter (!isAdded ·), here := before.here }

/-- The program at a place. -/
def at? (place : Place) : Option Text :=
  directories.findSome? fun dir =>
    match Path.dropParts? dir place with
    | some [name] => if names.contains name then some name else none
    | _ => none

end ComponentPaths.System
