/-
What an analysis leaves on the disk, and what it asks of programs.

Programs are given: an analysis can be run with any of them. It writes nothing by
itself, so it leaves the disk as it was if the program that it runs does
(`Codebase.disk_analyzeFiles`). With dumps at hand it runs none, and all programs
are the same to it (`Codebase.analyzeFiles_dumped`).

Of the programs at hand, only those that run scripts can change the disk
(`Programs.standard_leavesDisk`). What is always there is put on the disk for a
program to see, and taken off again (`System.withoutEntries_withEntries`).
-/
import ComponentPaths.Analysis
import ComponentPaths.Command.Standard

namespace ComponentPaths

-- ===================================================================== work

namespace Work

variable {α β : Type} {d : Disk}

/-- Work that leaves a disk as it was, whatever comes of it. -/
def Keeps (work : Work α) (d : Disk) : Prop :=
  (work.perform d).2 = d

/-- Two pieces of work, each of which leaves the disk as it was. -/
theorem Keeps.bind {work : Work α} {next : α → Work β} (h : Keeps work d)
    (hnext : ∀ a, Keeps (next a) d) : Keeps (work >>= next) d := by
  unfold Keeps perform at h ⊢
  show ((ExceptT.bindCont next (work.run.run d).1).run (work.run.run d).2).2 = d
  cases (work.run.run d).1 with
  | error fault => exact h
  | ok a =>
      rw [h]
      exact hnext a

/-- Work that looks at the disk first. -/
theorem Keeps.bind_disk {next : Disk → Work β} (h : Keeps (next d) d) :
    Keeps (Work.disk >>= next) d :=
  h

end Work

-- ================================================================= programs

/-- The program of a name never changes the disk. -/
def Programs.LeavesDisk (programs : Programs) (name : Text) : Prop :=
  ∀ d args ran, programs d name args = .ok ran → ran.disk = d

/-- What is put on a disk for a program to see does not stay there. -/
theorem System.withoutEntries_withEntries (d : Disk) : withoutEntries d (withEntries d) = d := by
  have hthere : ∀ e ∈ d.entries, (d.entry? e.1).isNone = false := by
    intro e he
    unfold Disk.entry?
    split
    · rfl
    · rw [Option.isNone_eq_false_iff, Option.isSome_iff_ne_none]
      intro hnone
      have hne := List.lookup_eq_none_iff.1 hnone e he
      simp at hne
  unfold withoutEntries withEntries
  dsimp only
  have hold : d.entries.filter
      (fun e => !((d.entry? e.1).isNone && entries.contains e)) = d.entries :=
    List.filter_eq_self.2 fun e he => by simp [hthere e he]
  have hadded : (entries.filter fun e => (d.entry? e.1).isNone).filter
      (fun e => !((d.entry? e.1).isNone && entries.contains e)) = [] := by
    refine List.filter_eq_nil_iff.2 fun e he => ?_
    obtain ⟨hmem, hnone⟩ := List.mem_filter.1 he
    simp [hnone, hmem]
  rw [List.filter_append, hold, hadded, List.append_nil]

/-- A program that is found by its name, and does not run scripts, only looks at the
disk. -/
theorem Programs.standard_leavesDisk {name : Text} (hname : '/' ∉ name)
    (hshell : name ∉ System.shells) : standard.LeavesDisk name := by
  intro d args ran h
  unfold standard at h
  split at h
  · cases h
  · dsimp only at h
    have hfind : find (System.withEntries d) name = ofName name :=
      if_neg (by simpa using hname)
    have hrunner : runner? name = (System.programs.lookup name).map
        fun program d called args => (program d called (.text []) args, d) :=
      if_neg (by simpa using hshell)
    rw [hfind, ofName, hrunner] at h
    cases hprogram : System.programs.lookup name with
    | none =>
        rw [hprogram] at h
        dsimp only [Option.map_none] at h
        split at h
        · cases h
        · next runner hrunner =>
          split at hrunner
          · cases hrunner
          · split at hrunner <;> cases hrunner
    | some program =>
        rw [hprogram] at h
        cases h
        exact System.withoutEntries_withEntries d

-- ================================================================== parsing

namespace Provider

variable {programs : Programs} {settings : ParserSettings} {root file : Text}

/-- A run of the parser leaves the disk as the program does. -/
theorem keeps_runParser (h : programs.LeavesDisk settings.program) (path : Text) (d : Disk) :
    (runParser programs settings path).Keeps d := by
  unfold runParser
  refine Work.Keeps.bind_disk ?_
  split
  · exact rfl
  · next ran hran =>
    have hdisk := h d _ ran hran
    rw [hdisk]
    refine Work.Keeps.bind rfl fun _ => ?_
    split <;> exact rfl

/-- A parse leaves the disk as it was if the parser does. -/
theorem keeps_parse (h : settings.dumpDir = none → programs.LeavesDisk settings.program)
    (d : Disk) : (parse programs settings root file).Keeps d := by
  unfold parse
  refine Work.Keeps.bind_disk ?_
  split
  · exact rfl
  · next source hsource =>
    dsimp only
    split
    · exact Work.Keeps.bind rfl fun printed => rfl
    · next hnone => exact (keeps_runParser (h hnone) _ d).bind fun printed => rfl

/-- With dumps at hand, no program is asked. -/
theorem parse_dumped {dumpDir : Text} (h : settings.dumpDir = some dumpDir)
    (others : Programs) : parse others settings root file = parse programs settings root file := by
  unfold parse
  rw [h]

end Provider

-- ================================================================= analyses

namespace Codebase

variable {c : Codebase}

/-- The analysis of a file leaves the disk as it was if the parser does. -/
theorem keeps_analyzeFile
    (h : c.settings.parser.dumpDir = none → c.programs.LeavesDisk c.settings.parser.program)
    (file : Text) (d : Disk) : (c.analyzeFile file).Keeps d := by
  have hparse : ((c.parse file).perform d).2 = d := Provider.keeps_parse h d
  unfold analyzeFile
  refine Work.Keeps.bind_disk ?_
  generalize (c.parse file).perform d = parsed at hparse ⊢
  obtain ⟨result, left⟩ := parsed
  obtain rfl : left = d := hparse
  -- whatever came of the parse, the disk that it left is put back
  split
  all_goals
    next heq =>
    cases heq
    exact Work.Keeps.bind rfl fun _ => rfl

/-- And so does the analysis of any number of files. -/
theorem disk_analyzeFiles
    (h : c.settings.parser.dumpDir = none → c.programs.LeavesDisk c.settings.parser.program)
    (files : List Text) (d : Disk) : ((c.analyzeFiles files).perform d).2 = d := by
  show (c.analyzeFiles files).Keeps d
  unfold analyzeFiles
  induction files with
  | nil => exact rfl
  | cons file files ih =>
      rw [List.mapM_cons]
      refine (keeps_analyzeFile h file d).bind fun analysis => ?_
      exact ih.bind fun _ => rfl

/-- With dumps at hand, an analysis is the same whatever programs there are. -/
theorem analyzeFiles_dumped {dumpDir : Text} (h : c.settings.parser.dumpDir = some dumpDir)
    (programs : Programs) (files : List Text) :
    { c with programs := programs }.analyzeFiles files = c.analyzeFiles files := by
  have hparse : { c with programs := programs }.parse = c.parse :=
    funext fun file => Provider.parse_dumped h programs
  unfold analyzeFiles analyzeFile
  rw [hparse]
  rfl

end Codebase

end ComponentPaths
