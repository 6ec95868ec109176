/-
Work on a disk that may come to a fault. What was done before the fault stays
done.
-/
import ComponentPaths.Disk.Basic

namespace ComponentPaths

/-- Work on a disk, which keeps what was done before a fault. -/
abbrev Work := ExceptT Fault (StateM Disk)

namespace Work

/-- The disk, as the work has left it so far. -/
def disk : Work Disk :=
  get

/-- What was found out without touching the disk. -/
def ofExcept {α : Type} (result : Except Fault α) : Work α :=
  ExceptT.mk (pure result)

/-- A change of the disk that the operating system may refuse. -/
def attempt (change : Disk → Except OsError Disk) : Work Unit := do
  match change (← disk) with
  | .ok changed => set changed
  | .error error => throw (.io (.os error))

/-- All of the work, from a disk to what is found out and the disk it leaves. -/
def perform {α : Type} (work : Work α) (d : Disk) : Except Fault α × Disk :=
  work.run.run d

end Work

end ComponentPaths
