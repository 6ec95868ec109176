/-
The command line: the first argument names a tool, the others are for it.

The parts of the real disk that a run can see are read into a value, the tool
runs on that value, and what it changed is written back. Nothing is decided
here.
-/
import ComponentPaths.Command.Standard
import ComponentPaths.Tool.Basic
import Std.Time

namespace ComponentPaths.CommandLine

-- ===================================================================== reading

/-- The path name of a place, as the system takes it. -/
def systemName (place : Place) : String :=
  String.ofList ('/' :: Text.joinSlash place)

/-- Whether a directory is at a place; none when nothing is there. -/
def isDir? (place : Place) : IO (Option Bool) := do
  try
    let path ← IO.FS.realPath (systemName place)
    if ← path.isDir then return some true
    if ← path.pathExists then return some false
    return none
  catch _ => return none

/-- The disk with what is really at a place and, as far as `depth` goes, below it. -/
def loadPlace : (depth : Nat) → Disk → Place → IO Disk
  | depth, d, place => do
    match ← isDir? place with
    | none => return d
    | some false =>
      let content ← IO.FS.readBinFile (systemName place)
      return d.put place (.file content.toList)
    | some true =>
      let d := d.put place .directory
      match depth with
      | 0 => return d
      | left + 1 =>
        let names := (← (← IO.FS.realPath (systemName place)).readDir).map fun e => e.fileName
        names.foldlM (fun d name => loadPlace left d (place ++ [name.toList])) d

/-- How deep directories are read. -/
def depthLimit : Nat := 100

/-- The place of a path name, whether or not anything is there. -/
def placeOf (here : Place) (path : Text) : Place :=
  let start := if Path.isAbsolute path then [] else here
  (Text.splitSlash path).foldl
    (fun place name =>
      if Path.isVoid name then place
      else if name = ".." then place.dropLast
      else place ++ [name])
    start

/-- The disk with what is at a path name, with the directories on the way. -/
def loadPath (d : Disk) (path : Text) : IO Disk := do
  let place := placeOf d.here path
  let mut d := d
  for above in (Place.onTheWay place).dropLast do
    unless above.isEmpty do
      d ← loadPlace 0 d above
  if place.isEmpty then return d else loadPlace depthLimit d place

/-- The path names that a run mentions. -/
def mentioned (args : Arguments.Given) : List Text :=
  ("logs" : Text) :: args.places ++ args.options.map Prod.snd

/-- The disk that a run sees: what it mentions, and the dumps that its settings name. -/
def loadDisk (args : Arguments.Given) : IO Disk := do
  let here := placeOf [] (← IO.FS.realPath ".").toString.toList
  let seen ← (mentioned args).foldlM loadPath ⟨[], here, "000000"⟩
  match Settings.load seen (args.option? "settings") with
  | .ok settings =>
    match settings.parser.dumpDir with
    | some dir => loadPath seen dir
    | none => return seen
  | .error _ => return seen

-- ===================================================================== writing

/-- Writes back what a run changed. Directories come before what is in them. -/
def storeDisk (before after : Disk) : IO Unit := do
  for (place, entry) in after.entries do
    if before.entry? place != some entry then
      match entry with
      | .directory => IO.FS.createDirAll (systemName place)
      | .file content => IO.FS.writeBinFile (systemName place) ⟨content.toArray⟩

-- ======================================================================== time

/-- A number with two digits. -/
def twoDigits (n : Int) : Text :=
  if n < 10 then '0' :: Text.ofInt n else Text.ofInt n

/-- The day of a moment. -/
def dayText (t : Std.Time.PlainDateTime) : Text :=
  Text.join ['-']
    [Text.ofInt t.date.year, twoDigits t.date.month.val, twoDigits t.date.day.val]

/-- The time of the day of a moment. -/
def timeText (separator : Char) (t : Std.Time.PlainDateTime) : Text :=
  Text.join [separator]
    [twoDigits t.time.hour.val, twoDigits t.time.minute.val, twoDigits t.time.second.val]

/-- A moment as messages give it. -/
def momentText (t : Std.Time.PlainDateTime) : Text :=
  dayText t ++ ' ' :: timeText ':' t

-- ======================================================================== runs

/-- Prints what a run leaves. -/
def deliver (before : Disk) (result : Tool.Result) : IO UInt32 := do
  storeDisk before result.disk
  (← IO.getStdout).putStr (String.ofList result.output)
  (← IO.getStderr).putStr (String.ofList result.errors)
  return UInt32.ofNat result.exitCode

/-- A run of a tool. -/
def runTool (tool : Tool) (arguments : List Text) : IO UInt32 := do
  match Arguments.read tool.spec arguments with
  | .error stop => deliver ⟨[], [], []⟩ (tool.refuse ⟨[], [], []⟩ stop)
  | .ok args =>
    let started ← Std.Time.PlainDateTime.now
    let startedAt ← IO.monoMsNow
    let beginning : Beginning := ⟨dayText started, timeText '-' started, momentText started⟩
    let disk ← loadDisk args
    let progress := tool.start Programs.standard beginning args disk
    let elapsed := Text.ofNat ((← IO.monoMsNow) - startedAt)
    let ending : Ending := ⟨momentText (← Std.Time.PlainDateTime.now), elapsed⟩
    deliver disk (Tool.finish beginning ending progress)

/-- What to say when no tool is named. -/
def toolNames : Text :=
  "Tools: " ++ Text.join ", " (Tool.all.map Tool.name) ++ "\n"

end ComponentPaths.CommandLine

open ComponentPaths in
/-- Runs the tool that the first argument names. -/
def main (arguments : List String) : IO UInt32 := do
  match arguments.map String.toList with
  | [] =>
    (← IO.getStderr).putStr (String.ofList CommandLine.toolNames)
    return 2
  | name :: rest =>
    match Tool.ofName? name with
    | some tool => CommandLine.runTool tool rest
    | none =>
      (← IO.getStderr).putStr (String.ofList CommandLine.toolNames)
      return 2
