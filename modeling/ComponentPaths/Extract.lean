/-
Extracting a component: its files are copied to a directory of their own, and
the references in the copies are changed to go through components.

The files are analysed where they were, because there the whole codebase says
who owns what. Directories of sub-plugin types stay behind.
-/
import ComponentPaths.Batch
import ComponentPaths.Discovery
import ComponentPaths.Tree.Load

namespace ComponentPaths.Extract

/-- What an extraction leaves. -/
structure Outcome where
  filesCopied : Nat
  filesUpdated : Nat
  editsApplied : Nat
  analyses : List Analysis

/-- Nothing copied. -/
def Outcome.empty : Outcome :=
  ⟨0, 0, 0, []⟩

-- =================================================================== component

/-- The component that an id names, with its directory, which has to be there. -/
def sourceDir (tree : ComponentTree) (d : Disk) (root id : Text) :
    Except Fault (Component × Text) :=
  match Component.ofId? id with
  | none => .error (.unknownComponent id)
  | some component =>
    match tree.componentDir? component with
    | none => .error (.unknownComponent id)
    | some dir =>
      if dir.isEmpty || !d.isDir (Path.join root dir) then .error (.unknownComponent id)
      else .ok (component, dir)

/-- The files of a component's directory, as paths below `root`, in ascending
order. Directories of plugin types below it are left out. -/
def componentFiles (tree : ComponentTree) (d : Disk) (root dir : Text) : List Text :=
  let nested := tree.nestedPluginTypeDirs dir
  let path := Path.join root dir
  let nameOf (names : Place) : Option Text :=
    Path.relativeName? root (Discovery.pathOf path names)
  let skip (names : Place) : Bool := (nameOf names).any nested.contains
  Text.sort ((d.filesBelow path skip).filterMap nameOf)

/-- The path of a file inside its component. -/
def inner (dir file : Text) : Text :=
  ((Text.dropHead? dir file).getD file).dropWhile (· == '/')

-- ===================================================================== copying

/-- The content of a file. -/
def readFile (path : Text) : Work Bytes := do
  match (← Work.disk).read path with
  | .ok content => pure content
  | .error error => throw (.io error)

/-- One file copied, with the directories on the way. The target is emptied
before the source is read, so a file copied to itself is lost. -/
def copyFile (source target : Text) : Work Unit := do
  match Path.parent? target with
  | some dir => Work.attempt (·.makeDirs dir)
  | none => pure ()
  let _ ← readFile source
  Work.attempt (·.write target [])
  let content ← readFile source
  Work.attempt (·.write target content)

/-- Some files of a component copied, each to its path inside the component. -/
def copyFiles (root dir output : Text) : List Text → Work Unit
  | [] => pure ()
  | file :: rest => do
    copyFile (Path.join root file) (Path.join output (inner dir file))
    copyFiles root dir output rest

/-- The edits of one analysed file applied to its copy, and whether that changed it. -/
def updateCopy (target : Text) (a : Analysis) : Work Bool := do
  match Batch.updateFile Disk.store (← Work.disk) target a.source a.edits false with
  | .ok (changed, disk) =>
    set disk
    pure changed
  | .error fault => throw fault

/-- The edits of some analysed files applied to their copies, after what was done before. -/
def updateCopies (output dir : Text) : List Analysis → Outcome → Work Outcome
  | [], done => pure done
  | a :: rest, done => do
    let changed ← updateCopy (Path.join output (inner dir a.file)) a
    let done := { done with analyses := done.analyses ++ [a] }
    if changed then
      updateCopies output dir rest
        { done with
          filesUpdated := done.filesUpdated + 1
          editsApplied := done.editsApplied + a.edits.length }
    else updateCopies output dir rest done

/-- The copies of some files changed as the analyses of these files ask for. -/
def rewriteCopies (c : Codebase) (dir output : Text) (files : List Text) : Work Outcome := do
  let phpFiles := files.filter fun file => (Text.dropTail? ".php" file).isSome
  let analyses ← c.analyzeFiles phpFiles
  updateCopies output dir analyses { Outcome.empty with filesCopied := files.length }

/-- The component that an id names, extracted to the directory `output`, which
must not be there. -/
def extract (c : Codebase) (id output : Text) : Work Outcome := do
  let disk ← Work.disk
  if disk.exists? output then throw (.outputExists output)
  let (_, dir) ← Work.ofExcept (sourceDir c.tree disk c.root id)
  let files := componentFiles c.tree disk c.root dir
  Work.attempt (·.makeDirs output)
  copyFiles c.root dir output files
  rewriteCopies c dir output files

end ComponentPaths.Extract
