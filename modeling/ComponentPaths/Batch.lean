/-
Changing many files.

Each file is replaced as a whole or stays as it is. One that cannot be
written leaves a warning, and the others go on. Edits that do not apply end
the batch: they are a mistake of the analysis, not of the disk.

Where the files are is left open: a store only says what replacing a file
does, so the same batch runs on a disk and on any store that fails.
-/
import ComponentPaths.Analysis

namespace ComponentPaths

/-- A place where files can be replaced. A replacement that fails changes
nothing. -/
structure Store (σ : Type) where
  replace : σ → (path : Text) → Bytes → Except IoError σ

/-- The disk as a store. -/
def Disk.store : Store Disk :=
  ⟨Disk.replace⟩

/-- What changing some files leaves. -/
structure BatchOutcome where
  filesChanged : Nat
  editsApplied : Nat
  log : Log
  deriving DecidableEq, Repr

namespace BatchOutcome

/-- Nothing changed. -/
def empty : BatchOutcome :=
  ⟨0, 0, Log.empty⟩

/-- How many files could not be written; each left one warning. -/
def writeFailures (o : BatchOutcome) : Nat :=
  o.log.warnings

/-- One more file changed. -/
def addChanged (o : BatchOutcome) (dryRun : Bool) (edits : Nat) (file : Text) : BatchOutcome :=
  let message : Text :=
    if dryRun then "[DRY RUN] Would rewrite " ++ Text.ofNat edits ++ " path(s) in " ++ file
    else "Rewrote " ++ Text.ofNat edits ++ " path(s) in " ++ file
  ⟨o.filesChanged + 1, o.editsApplied + edits, o.log.info message⟩

/-- One more file that could not be written. -/
def addFailed (o : BatchOutcome) (file : Text) (error : IoError) : BatchOutcome :=
  { o with
    log := o.log.warn ("Could not write " ++ file ++ ": " ++ error.message ++ "; left unchanged") }

end BatchOutcome

namespace Batch

/-- The new content of a file; none when the edits change nothing. -/
def updated? (path : Text) (content : Bytes) (edits : List Edit) : Except Fault (Option Bytes) :=
  if edits.isEmpty then .ok none
  else
    (Edit.applyAll content edits path).map fun changed =>
      if changed = content then none else some changed

/-- A file with its edits, and whether that changed it. A dry run changes no file. -/
def updateFile {σ : Type} (store : Store σ) (s : σ) (path : Text) (content : Bytes)
    (edits : List Edit) (dryRun : Bool) : Except Fault (Bool × σ) :=
  match updated? path content edits with
  | .error fault => .error fault
  | .ok none => .ok (false, s)
  | .ok (some changed) =>
    if dryRun then .ok (true, s)
    else
      match store.replace s path changed with
      | .error error => .error (.io error)
      | .ok written => .ok (true, written)

/-- The edits of some analyses applied, after what was done before. The store
is given back also when edits do not apply. -/
def applyFrom {σ : Type} (store : Store σ) (root : Text) (dryRun : Bool) :
    List Analysis → BatchOutcome → σ → Except Fault BatchOutcome × σ
  | [], done, s => (.ok done, s)
  | a :: rest, done, s =>
    if a.parseFailed then applyFrom store root dryRun rest done s
    else
      match updateFile store s (Path.join root a.file) a.source a.edits dryRun with
      | .ok (false, s) => applyFrom store root dryRun rest done s
      | .ok (true, s) =>
        applyFrom store root dryRun rest (done.addChanged dryRun a.edits.length a.file) s
      | .error (.io error) => applyFrom store root dryRun rest (done.addFailed a.file error) s
      | .error fault => (.error fault, s)

/-- The edits of some analyses applied to their files below `root`. -/
def apply {σ : Type} (store : Store σ) (root : Text) (analyses : List Analysis) (dryRun : Bool)
    (s : σ) : Except Fault BatchOutcome × σ :=
  applyFrom store root dryRun analyses BatchOutcome.empty s

end Batch

end ComponentPaths
