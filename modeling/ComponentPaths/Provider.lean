/-
Where the syntax of a file comes from: a command that prints its dump, or a
directory with dumps that were made before.
-/
import ComponentPaths.Command.Basic
import ComponentPaths.Disk.Work
import ComponentPaths.Dump
import ComponentPaths.Settings

namespace ComponentPaths.Provider

/-- The arena of a file and what its parser printed. -/
def lowerPrinted (path : Text) (source : Bytes) (printed : Text) : Except Fault Arena :=
  match Dump.lower source (Dump.extract printed) with
  | .ok arena => .ok arena
  | .error error => .error (.parseFailure path error.message)

/-- What a command prints for a file. -/
def runParser (programs : Programs) (settings : ParserSettings) (path : Text) : Work Text := do
  match programs (← Work.disk) settings.program (settings.args ++ [path]) with
  | .error error =>
    throw (.parseFailure path ("failed to run " ++ settings.program ++ ": " ++ error.message))
  | .ok ran =>
    set ran.disk
    if ran.succeeded then return Bytes.toTextLossy ran.output
    else throw (.parseFailure path (Text.trim (Bytes.toTextLossy ran.errors)))

/-- The dump of a file that was made before. -/
def readDump (d : Disk) (dumpDir path file : Text) : Except Fault Text :=
  let dumpPath := Path.join dumpDir (file ++ ".json")
  match d.readText dumpPath with
  | .ok text => .ok text
  | .error error =>
    .error (.parseFailure path ("no AST dump at " ++ dumpPath ++ ": " ++ error.message))

/-- The arena of a file, given by its path below `root`. -/
def parse (programs : Programs) (settings : ParserSettings) (root file : Text) : Work Arena := do
  let path := Path.join root file
  let d ← Work.disk
  match d.read path with
  | .error error => throw (.parseFailure path error.message)
  | .ok source =>
    let printed ←
      match settings.dumpDir with
      | some dumpDir => Work.ofExcept (readDump d dumpDir path file)
      | none => runParser programs settings path
    Work.ofExcept (lowerPrinted path source printed)

end ComponentPaths.Provider
