/-
Disks that only grow.

A disk extends another one if every entry of that one is still there. Path
names are followed through directories, so all that a disk answers, a disk that
extends it answers in the same way (`Extends.stat`). New directories extend a
disk (`extends_makeDirs`), and so does a file at a place where there was
nothing.

A path name at which there is nothing may still lead to something: a step up
from a directory that is missing is refused as long as it is missing. Without
steps up there is nothing at the place, nor below it, once the path name can be
followed at all (`eq_none_of_not_exists`).
-/
import ComponentPaths.Disk.Work
import ComponentPaths.Proofs.Disk.Joining

namespace ComponentPaths

open Relative (IsName)

namespace Disk

variable {d d' d'' : Disk} {path output : Text} {place final base : Place} {content : Bytes}
  {names : List Text}

-- ============================================================ directories

/-- A path leads as far as before where all directories are still there. -/
theorem follow_mono
    (h : ∀ place, d.entry? place = some .directory → d'.entry? place = some .directory)
    (hf : d.follow place names = .ok final) : d'.follow place names = .ok final := by
  induction names generalizing place with
  | nil => exact hf
  | cons name rest ih =>
      have hdir := directory_of_follow hf
      rw [follow_of_directory hdir] at hf
      rw [follow_of_directory (h place hdir)]
      split at hf
      · next hvoid =>
        rw [if_pos hvoid]
        exact ih hf
      next hvoid =>
      rw [if_neg hvoid]
      split at hf
      · next hup =>
        rw [if_pos hup]
        exact ih hf
      next hup =>
      rw [if_neg hup]
      split at hf
      · cases hf
      · next hshort =>
        rw [if_neg hshort]
        exact ih hf

-- ================================================================ extending

/-- Every entry of the one disk is an entry of the other. -/
structure Extends (d d' : Disk) : Prop where
  here : d'.here = d.here
  entries : ∀ place entry, d.entry? place = some entry → d'.entry? place = some entry

namespace Extends

theorem refl (d : Disk) : Extends d d :=
  ⟨rfl, fun _ _ h => h⟩

theorem trans (h : Extends d d') (h' : Extends d' d'') : Extends d d'' :=
  ⟨h'.here.trans h.here, fun _ _ hentry => h'.entries _ _ (h.entries _ _ hentry)⟩

/-- Path names lead to the same places. -/
theorem locate (h : Extends d d') (hlocate : d.locate path = .ok place) :
    d'.locate path = .ok place := by
  obtain ⟨hcheck, hfollow⟩ := locate_eq_ok_iff.1 hlocate
  refine locate_eq_ok_iff.2 ⟨hcheck, ?_⟩
  have hstart : d'.start path = d.start path := by
    unfold start
    rw [h.here]
  rw [hstart]
  exact follow_mono (fun place => h.entries place .directory) hfollow

end Extends

/-- What a path name leads to is the entry at the place it names. -/
theorem stat_eq_ok_iff {entry : Entry} :
    d.stat path = .ok entry ↔ ∃ place, d.locate path = .ok place ∧ d.entry? place = some entry := by
  unfold stat
  cases hlocate : d.locate path with
  | error error => simp
  | ok place =>
      dsimp only
      cases hentry : d.entry? place with
      | none => simp [hentry]
      | some found => simp [hentry]

/-- Only files can be read. -/
theorem read_eq_ok_iff : d.read path = .ok content ↔ d.stat path = .ok (.file content) := by
  unfold read
  split
  · next found hstat => simp [hstat]
  · next hstat => simp [hstat]
  · next error hstat => simp [hstat]

theorem stat_of_isDir (h : d.isDir path = true) : d.stat path = .ok .directory := by
  unfold isDir at h
  split at h
  · assumption
  · cases h

/-- And files always can. -/
theorem exists_read_of_isFile (h : d.isFile path = true) :
    ∃ content, d.read path = .ok content := by
  unfold isFile at h
  split at h
  · next content hstat => exact ⟨content, read_eq_ok_iff.2 hstat⟩
  · cases h

/-- What is found stays where it is on a larger disk, -/
theorem Extends.stat {entry : Entry} (h : Extends d d') (hstat : d.stat path = .ok entry) :
    d'.stat path = .ok entry := by
  obtain ⟨place, hlocate, hentry⟩ := stat_eq_ok_iff.1 hstat
  exact stat_eq_ok_iff.2 ⟨place, h.locate hlocate, h.entries _ _ hentry⟩

/-- and files have the same content there. -/
theorem Extends.read (h : Extends d d') (hread : d.read path = .ok content) :
    d'.read path = .ok content :=
  read_eq_ok_iff.2 (h.stat (read_eq_ok_iff.1 hread))

/-- A new entry leaves the entries of a disk that has nothing at its place. -/
theorem Extends.put (h : Extends d d') (hnone : d.entry? place = none) (entry : Entry) :
    Extends d (d'.put place entry) := by
  have hplace : place ≠ [] := by
    rintro rfl
    cases hnone
  refine ⟨(here_put place entry).trans h.here, fun other found hfound => ?_⟩
  rw [entry_put hplace, if_neg]
  · exact h.entries other found hfound
  · rintro rfl
    rw [hnone] at hfound
    cases hfound

-- ========================================================= new directories

/-- A new directory takes nothing away. -/
theorem extends_makeDir (h : d.makeDir path = .ok d') : Extends d d' := by
  unfold makeDir at h
  split at h
  · cases h
  split at h
  · cases h
  split at h
  · cases h
  next hentry =>
  cases h
  exact (Extends.refl d).put hentry .directory

/-- Nor do the directories around it. -/
theorem extends_makeDirsAround {around : List Text} (h : makeDirsAround around d = .ok d') :
    Extends d d' := by
  induction around generalizing d' with
  | nil =>
      cases h
      exact .refl d
  | cons path around ih =>
      rw [makeDirsAround] at h
      split at h
      · next made hmade =>
        cases h
        exact extends_makeDir hmade
      · split at h
        · cases h
        next outer houter =>
        split at h
        · next made hmade =>
          cases h
          exact (ih houter).trans (extends_makeDir hmade)
        · split at h
          · cases h
            exact ih houter
          · cases h
      · split at h
        · cases h
          exact .refl d
        · cases h

theorem extends_makeDirs (h : d.makeDirs path = .ok d') : Extends d d' :=
  extends_makeDirsAround h

-- ================================================================= writing

/-- What writing a file does, if it does anything. -/
theorem write_eq_ok (h : d.write path content = .ok d') :
    ∃ place, d.locate path = .ok place ∧ d.entry? place ≠ some .directory
      ∧ d' = d.put place (.file content) := by
  unfold write at h
  split at h
  · cases h
  next above name habove =>
  split at h
  · cases h
  next hlast =>
  split at h
  · cases h
  next place hplace =>
  split at h
  · cases h
  next hentry =>
  cases h
  exact ⟨place, locate_of_locateLast (by simpa using hlast) habove hplace,
    fun hdir => hentry hdir, rfl⟩

/-- A file that is written where there is no directory leads nobody elsewhere. -/
theorem locate_put_file (hentry : d.entry? place ≠ some .directory) (content : Bytes) :
    (d.put place (.file content)).locate path = .ok final ↔ d.locate path = .ok final := by
  rw [← place?_eq_some_iff, ← place?_eq_some_iff, place?_put_file hentry]

/-- What was written is what is read. -/
theorem read_put_file (hentry : d.entry? place ≠ some .directory)
    (hplace : d.locate path = .ok place) (content : Bytes) :
    (d.put place (.file content)).read path = .ok content := by
  refine read_eq_ok_iff.2 (stat_eq_ok_iff.2 ⟨place, (locate_put_file hentry content).2 hplace, ?_⟩)
  rw [entry_put, if_pos rfl]
  rintro rfl
  exact hentry rfl

/-- A file that is put elsewhere is not seen. -/
theorem read_put_file_of_ne (hentry : d.entry? place ≠ some .directory) {written : Bytes}
    (hread : d.read path = .ok content) (hne : d.locate path ≠ .ok place) :
    (d.put place (.file written)).read path = .ok content := by
  obtain ⟨other, hother, hfound⟩ := stat_eq_ok_iff.1 (read_eq_ok_iff.1 hread)
  refine read_eq_ok_iff.2 (stat_eq_ok_iff.2 ⟨other, (locate_put_file hentry written).2 hother, ?_⟩)
  rw [entry_put, if_neg]
  · exact hfound
  · rintro rfl
    exact hne hother
  · rintro rfl
    exact hentry rfl

-- ========================================================== missing places

/-- A disk as it can be: names are names, and around everything there are
directories. -/
structure Sound (d : Disk) : Prop where
  names : ∀ entry ∈ d.entries, ∀ s ∈ entry.1, IsName s
  around : ∀ entry ∈ d.entries, ∀ place ∈ Place.onTheWay entry.1.dropLast,
    d.entry? place = some .directory

instance (d : Disk) : Decidable d.Sound :=
  decidable_of_iff
    ((∀ entry ∈ d.entries, ∀ s ∈ entry.1, IsName s)
      ∧ ∀ entry ∈ d.entries, ∀ place ∈ Place.onTheWay entry.1.dropLast,
        d.entry? place = some .directory)
    ⟨fun h => ⟨h.1, h.2⟩, fun h => ⟨h.names, h.around⟩⟩

theorem mem_entries {entry : Entry} (hplace : place ≠ []) (h : d.entry? place = some entry) :
    (place, entry) ∈ d.entries := by
  unfold entry? at h
  rw [if_neg (by simpa using hplace)] at h
  obtain ⟨front, back, heq, -⟩ := List.lookup_eq_some_iff.1 h
  rw [heq]
  exact List.mem_append_right _ List.mem_cons_self

/-- The places around an entry are directories. -/
theorem Sound.directory (h : d.Sound) {entry : Entry} (hentry : d.entry? place = some entry)
    (hbegins : base <+: place) (hne : base ≠ place) : d.entry? base = some .directory := by
  have hplace : place ≠ [] := by
    rintro rfl
    exact hne (List.prefix_nil.1 hbegins)
  refine h.around _ (mem_entries hplace hentry) base (mem_onTheWay.2 ?_)
  obtain ⟨rest, rfl⟩ := hbegins
  refine (prefix_dropLast_iff hplace).2 ⟨rest, ?_, rfl⟩
  rintro rfl
  exact hne (List.append_nil base).symm

/-- The names of a directory and of something in it, as they are followed. -/
theorem follow_join (hne : output ≠ []) (hnames : ∀ s ∈ names, IsName s) (hnames' : names ≠ [])
    (h : d.locate (Path.join output (Text.joinSlash names)) = .ok place) :
    ∃ base, checkName output = .ok () ∧ d.entry? base = some .directory
      ∧ d.follow (d.start output) (Text.splitSlash output) = .ok base
      ∧ place = base ++ names := by
  rw [Path.join, Path.isAbsolute_names hnames, Bool.false_or, if_neg (by simpa using hne)] at h
  obtain ⟨name, rest, rfl⟩ := List.exists_cons_of_ne_nil hnames'
  split at h
  · next hlast =>
    obtain ⟨front, rfl⟩ := List.getLast?_eq_some_iff.1 (beq_iff_eq.1 hlast)
    obtain ⟨hcheck, hfollow⟩ := locate_eq_ok_iff.1 h
    rw [start_append hne, List.append_assoc, List.singleton_append,
      Text.splitSlash_append_slash, Text.splitSlash_names hnames hnames'] at hfollow
    obtain ⟨base, hbase, hrest⟩ := follow_append_eq_ok_iff.1 hfollow
    have hdir := directory_of_follow hrest
    refine ⟨base, checkName_of_append hne hcheck, hdir, ?_, follow_names_eq hnames hrest⟩
    rw [Text.splitSlash_append_slash]
    exact follow_append_eq_ok_iff.2 ⟨base, hbase, follow_void_eq_ok_iff.2 ⟨hdir, rfl⟩⟩
  · obtain ⟨base, hbase, hdir, hfollow⟩ := locate_append_slash hne h
    obtain ⟨hcheck, hbase⟩ := locate_eq_ok_iff.1 hbase
    rw [Text.splitSlash_names hnames hnames'] at hfollow
    exact ⟨base, hcheck, hdir, hbase, follow_names_eq hnames hfollow⟩

/-- A way without steps up can be gone on every disk that has its directories. -/
theorem follow_of_directories (hup : (".." : Text) ∉ names)
    (hf : d'.follow place names = .ok final)
    (hdirs : ∀ p, p <+: final → d.entry? p = some .directory) :
    d.follow place names = .ok final := by
  induction names generalizing place with
  | nil => exact hf
  | cons name rest ih =>
      have hplace : place <+: final := by
        rw [follow_eq_of_noUp hup hf]
        exact List.prefix_append _ _
      obtain ⟨hname, hrest⟩ := not_or.1 (mt List.mem_cons.2 hup)
      rw [follow_of_directory (directory_of_follow hf), if_neg (Ne.symm hname)] at hf
      rw [follow_of_directory (hdirs place hplace), if_neg (Ne.symm hname)]
      split at hf
      · next hvoid =>
        rw [if_pos hvoid]
        exact ih hrest hf
      next hvoid =>
      rw [if_neg hvoid]
      split at hf
      · cases hf
      · next hshort =>
        rw [if_neg hshort]
        exact ih hrest hf

/-- Where a path name without steps up did not lead to anything, there was
nothing. That it can be followed now tells that no other rule was in its way. -/
theorem eq_none_of_not_exists (hsound : d.Sound) (hgrow : Extends d d')
    (hup : (".." : Text) ∉ Text.splitSlash output) (hcheck : checkName output = .ok ())
    (hdir : d'.entry? base = some .directory)
    (hfollow : d'.follow (d'.start output) (Text.splitSlash output) = .ok base)
    (hnone : d.exists? output = false) (hbegins : base <+: place) : d.entry? place = none := by
  cases hentry : d.entry? place with
  | none => rfl
  | some entry =>
      exfalso
      have hdirs : ∀ p, p <+: base → d.entry? p = some .directory := by
        intro p hp
        by_cases heq : p = place
        · -- then it is the place of the path name, and that is a directory now
          subst heq
          obtain rfl : p = base := hp.eq_of_length_le hbegins.length_le
          have hnow := hgrow.entries _ _ hentry
          rw [hdir] at hnow
          cases hnow
          exact hentry
        · exact hsound.directory hentry (hp.trans hbegins) heq
      have hstart : d'.start output = d.start output := by
        unfold start
        rw [hgrow.here]
      rw [hstart] at hfollow
      have hlocate := locate_eq_ok_iff.2 ⟨hcheck, follow_of_directories hup hfollow hdirs⟩
      have hstat := stat_eq_ok_iff.2 ⟨base, hlocate, hdirs base List.prefix_rfl⟩
      unfold exists? at hnone
      rw [hstat] at hnone
      cases hnone

end Disk

-- ==================================================================== work

namespace Work

variable {α β : Type} {d d' : Disk}

/-- Work goes on from the disk that the work before it has left. -/
theorem perform_bind {x : Work α} {f : α → Work β} {b : β} :
    (x >>= f).perform d = (.ok b, d')
      ↔ ∃ a middle, x.perform d = (.ok a, middle) ∧ (f a).perform middle = (.ok b, d') := by
  have hrun : (x >>= f).perform d
      = match x.perform d with
        | (.ok a, middle) => (f a).perform middle
        | (.error fault, middle) => (.error fault, middle) := by
    show (ExceptT.bindCont f (x.run.run d).1).run (x.run.run d).2 = _
    unfold perform
    split
    · next a middle hx =>
      rw [hx]
      rfl
    · next fault middle hx =>
      rw [hx]
      rfl
  rw [hrun]
  rcases x.perform d with ⟨⟨fault⟩ | ⟨a⟩, middle⟩
  · simp
  · constructor
    · intro h
      exact ⟨a, middle, rfl, h⟩
    · rintro ⟨a', middle', heq, h⟩
      cases heq
      exact h

theorem perform_pure {a b : α} : (pure a : Work α).perform d = (.ok b, d') ↔ a = b ∧ d = d' := by
  show (Except.ok a, d) = (Except.ok b, d') ↔ _
  simp

/-- Looking at the disk does not change it. -/
theorem perform_disk {a : Disk} : Work.disk.perform d = (.ok a, d') ↔ a = d ∧ d' = d := by
  show (Except.ok d, d) = (Except.ok a, d') ↔ _
  simp only [Prod.mk.injEq, Except.ok.injEq]
  exact and_congr eq_comm eq_comm

/-- What was found out without the disk leaves it as it is. -/
theorem perform_ofExcept {result : Except Fault α} {a : α} :
    (Work.ofExcept result).perform d = (.ok a, d') ↔ result = .ok a ∧ d' = d := by
  show (result, d) = (Except.ok a, d') ↔ _
  simp only [Prod.mk.injEq]
  exact and_congr_right fun _ => eq_comm

/-- A fault is never a result. -/
theorem perform_throw {fault : Fault} {a : α} :
    (throw fault : Work α).perform d ≠ (.ok a, d') := by
  show (Except.error fault, d) ≠ _
  simp

/-- A change is made if the operating system allows it. -/
theorem perform_attempt {change : Disk → Except OsError Disk} :
    (Work.attempt change).perform d = (.ok (), d') ↔ change d = .ok d' := by
  unfold attempt
  rw [perform_bind]
  constructor
  · rintro ⟨a, middle, hdisk, h⟩
    obtain ⟨rfl, rfl⟩ := perform_disk.1 hdisk
    split at h
    · next changed hchange =>
      rw [hchange]
      exact congrArg Except.ok (congrArg Prod.snd h)
    · exact absurd h perform_throw
  · intro h
    refine ⟨d, d, perform_disk.2 ⟨rfl, rfl⟩, ?_⟩
    rw [h]
    rfl

end Work

end ComponentPaths
