/-
The analysis of files: parse each one, and decide about its path expressions.
A file that cannot be parsed leaves a warning and nothing else.
-/
import ComponentPaths.Finding
import ComponentPaths.Log
import ComponentPaths.Provider

namespace ComponentPaths

/-- What the analysis of a file leaves. -/
structure Analysis where
  file : Text
  /-- The bytes of the file; none when it could not be parsed. -/
  source : Bytes
  findings : List Finding
  log : Log
  parseFailed : Bool
  deriving DecidableEq, Repr

/-- The edits that an analysis asks for. -/
def Analysis.edits (a : Analysis) : List Edit :=
  Finding.edits a.findings

/-- A codebase to analyse: where it is, who owns what, and how to parse it. -/
structure Codebase where
  root : Text
  tree : ComponentTree
  settings : Settings
  programs : Programs

namespace Codebase

/-- The arena of a file. -/
def parse (c : Codebase) (file : Text) : Work Arena :=
  Provider.parse c.programs c.settings.parser c.root file

/-- The analysis of a file that could not be parsed. -/
def skipped (file : Text) (fault : Fault) : Analysis where
  file := file
  source := []
  findings := []
  log := Log.empty.warn (fault.message ++ "; skipped")
  parseFailed := true

/-- The analysis of a file that was parsed. -/
def analyzeArena (c : Codebase) (file : Text) (arena : Arena) : Except Fault Analysis :=
  (Finding.analyze c.tree c.settings.componentApi arena file).map fun findings =>
    ⟨file, arena.source, findings, Log.empty, false⟩

/-- The analysis of a file. -/
def analyzeFile (c : Codebase) (file : Text) : Work Analysis := do
  match (c.parse file).perform (← Work.disk) with
  | (.error (.parseFailure path reason), d) =>
    set d
    return skipped file (.parseFailure path reason)
  | (.error fault, d) =>
    set d
    throw fault
  | (.ok arena, d) =>
    set d
    Work.ofExcept (c.analyzeArena file arena)

/-- The analyses of some files, in order. -/
def analyzeFiles (c : Codebase) (files : List Text) : Work (List Analysis) :=
  files.mapM c.analyzeFile

end Codebase

end ComponentPaths
