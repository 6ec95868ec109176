/-
A session of a tool: what it prints, what it logs and what it does to the
disk, up to the failure that may end it.

The messages of a run go to the output and to a log file in a directory for
the tool and the day. Warnings go to the errors and to the log file. Without
a log file a run goes on.
-/
import ComponentPaths.Batch
import ComponentPaths.Tool.Arguments
import ComponentPaths.Tree.Load

namespace ComponentPaths

/-- When a run began, as it is written. -/
structure Beginning where
  /-- The day, as it names a directory. -/
  day : Text
  /-- The time of the day, as it names a file. -/
  time : Text
  /-- Both, as a message gives them. -/
  moment : Text
  deriving DecidableEq, Repr

/-- When a run ended, as it is written. -/
structure Ending where
  moment : Text
  /-- Milliseconds since the beginning. -/
  elapsed : Text
  deriving DecidableEq, Repr

/-- The state of a session. -/
structure Session where
  disk : Disk
  output : Text
  errors : Text
  /-- The log file, if there is one. -/
  logPath : Option Text
  warnings : Nat
  deriving DecidableEq, Repr

/-- A session on a disk before anything is said. -/
def Session.start (disk : Disk) : Session :=
  ⟨disk, [], [], none, 0⟩

/-- What ends a session. -/
structure Failure where
  message : Text
  cause : Option Text
  deriving DecidableEq, Repr

/-- A text with every line after the first moved in. -/
def Failure.indent (t : Text) : Text :=
  t.flatMap fun c => if c = '\n' then "\n    " else [c]

/-- The text of a failure. -/
def Failure.report (f : Failure) : Text :=
  let head : Text := "Error: " ++ f.message ++ "\n"
  match f.cause with
  | none => head
  | some cause => head ++ "\nCaused by:\n    " ++ Failure.indent cause ++ "\n"

/-- A step of a session. -/
abbrev Run := ExceptT Failure (StateM Session)

namespace Session

-- ==================================================================== printing

/-- Prints a line. -/
def printLine (line : Text) : Run Unit :=
  modify fun s => { s with output := s.output ++ line ++ "\n" }

/-- Prints text as it is. -/
def printText (text : Text) : Run Unit :=
  modify fun s => { s with output := s.output ++ text }

/-- Prints a line to the errors. -/
def printError (line : Text) : Run Unit :=
  modify fun s => { s with errors := s.errors ++ line ++ "\n" }

/-- The disk with a line more in a file. -/
def appendLine (d : Disk) (path line : Text) : Disk :=
  match d.read path with
  | .error _ => d
  | .ok content =>
    match d.write path (content ++ Bytes.ofText (line ++ "\n")) with
    | .ok written => written
    | .error _ => d

/-- Writes a line to the log file only. -/
def logSilent (line : Text) : Run Unit :=
  modify fun s =>
    match s.logPath with
    | some path => { s with disk := appendLine s.disk path line }
    | none => s

/-- Prints and logs a line. -/
def log (line : Text) : Run Unit := do
  printLine line
  logSilent line

/-- Prints and logs a warning. -/
def warn (message : Text) : Run Unit := do
  modify fun s => { s with warnings := s.warnings + 1 }
  printError ("Warning: " ++ message)
  logSilent ("Warning: " ++ message)

/-- Prints and logs what the processing of a file has left. -/
def absorb (entries : Log) : Run Unit :=
  for (level, message) in entries.entries do
    match level with
    | .info => log message
    | .warning => warn message

-- ======================================================================== disk

/-- The disk as it is now. -/
def currentDisk : Run Disk := do
  return (← get).disk

/-- Ends the session with a fault, and what could not be done because of it. -/
def failWith {α : Type} (fault : Fault) (context : Option Text) : Run α :=
  match context with
  | some message => throw ⟨message, some fault.message⟩
  | none => throw ⟨fault.message, none⟩

/-- A result that may be a fault. -/
def orFail {α : Type} (result : Except Fault α) (context : Option Text) : Run α :=
  match result with
  | .ok value => pure value
  | .error fault => failWith fault context

/-- Work on the disk that gives it back also after a fault. -/
def onDisk {α : Type} (work : Disk → Except Fault α × Disk) (context : Option Text) : Run α := do
  let (result, changed) := work (← currentDisk)
  modify fun s => { s with disk := changed }
  orFail result context

/-- Writes a file. -/
def writeFile (path : Text) (content : Text) : Run Unit := do
  match (← currentDisk).write path (Bytes.ofText content) with
  | .ok written => modify fun s => { s with disk := written }
  | .error error => failWith (.io (.os error)) (some ("Failed to create " ++ path))

-- ===================================================================== log file

/-- The directory of the log files of a tool for a day. -/
def logDir (tool : Text) (beginning : Beginning) : Text :=
  Text.joinSlash ["logs", tool, beginning.day]

/-- The disk with an empty log file, and the path of that file. -/
def createLog (d : Disk) (tool : Text) (beginning : Beginning) : Except OsError (Disk × Text) :=
  let dir := logDir tool beginning
  let path := Path.join dir ("run-" ++ beginning.time ++ ".log")
  match d.makeDirs dir with
  | .error error => .error error
  | .ok made => (made.write path []).map fun written => (written, path)

/-- Opens the log file of a run, if that is possible. -/
def openLog (tool : Text) (beginning : Beginning) : Run Unit := do
  match createLog (← currentDisk) tool beginning with
  | .ok (d, path) => modify fun s => { s with disk := d, logPath := some path }
  | .error error =>
    printError ("Warning: Could not create log file: " ++ error.message)
    printError "Continuing without logging..."

/-- What a run starts with. -/
def opening (tool root : Text) (beginning : Beginning) : Run Unit := do
  printLine ("Entering directory '" ++ root ++ "'")
  printLine []
  openLog tool beginning

/-- What a run ends with, once it has a summary. -/
def closing (beginning : Beginning) (ending : Ending) (summary : Text) : Run Unit := do
  printLine []
  printLine summary
  printLine ("Completed in " ++ ending.elapsed ++ "ms")
  log []
  log "=== Run Summary ==="
  log summary
  log ("Warnings: " ++ Text.ofNat (← get).warnings)
  log ("Started: " ++ beginning.moment)
  log ("Ended: " ++ ending.moment)
  log ("Duration: " ++ ending.elapsed ++ "ms")
  match (← get).logPath with
  | some path => log ("Log saved to: " ++ path)
  | none => pure ()

-- ==================================================================== codebase

/-- The settings in a file, with the dump directory of the command line. -/
def loadSettings (path dumpDir : Option Text) : Run Settings := do
  match Settings.load (← currentDisk) path with
  | .error error => throw ⟨error.message, some error.cause⟩
  | .ok settings =>
    match dumpDir with
    | none => pure settings
    | some dir => pure { settings with parser := { settings.parser with dumpDir := some dir } }

/-- The codebase at `root`. -/
def loadCodebase (programs : Programs) (root : Text) (settings : Settings) : Run Codebase := do
  let tree ← orFail (ComponentTree.load (← currentDisk) settings root)
    (some "Failed to build the component tree")
  pure ⟨root, tree, settings, programs⟩

end Session

end ComponentPaths
