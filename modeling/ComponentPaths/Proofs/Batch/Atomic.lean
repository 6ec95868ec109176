/-
A batch changes each file as a whole or not at all, and a dry run foretells
what it will do.

What a store holds is told by a view: path names lead to places, places have
entries, and replacing a file changes the entry at one place. The disk has
such a view (`Disk.view`), and so has every store that refuses some of its
path names on top of that (`View.refusing`), which makes up any pattern of
writes that fail.

One file can go five ways: it was not parsed, its edits change nothing, it
would be changed, it is written, its write fails. `handle` says once what
each of them leaves, and a batch in which all edits apply is `handle` over
its files (`applyFrom_append`). What is wanted of a batch is then wanted of
one step. The two runs keep in step because a dry run counts as changed what
the other counts as changed or warns about (`inStep_handle`). And a step
touches no place but its own (`held_handle_of_ne`), so what a file holds in
the end was settled when it was its turn (`settled_foldl_handle`).
-/
import ComponentPaths.Batch
import ComponentPaths.Proofs.Disk.Replacing
import ComponentPaths.Proofs.Edit.Splice

namespace ComponentPaths

-- =================================================================== views

/-- What a store holds: entries at places, to which path names lead. Replacing a
file gives its place a new entry, and changes neither another place nor the
way to any. -/
structure Store.View {σ : Type} (store : Store σ) (κ : Type) where
  place? : σ → (path : Text) → Option κ
  held : σ → κ → Option Entry
  replaced : ∀ {s s' : σ} {path : Text} {content : Bytes},
    store.replace s path content = .ok s' →
      ∃ place, place? s path = some place ∧ place? s' = place? s
        ∧ held s' place = some (.file content)
        ∧ ∀ other, other ≠ place → held s' other = held s other

/-- What a path name leads to. -/
def Store.View.at? {σ κ : Type} {store : Store σ} (view : store.View κ) (s : σ) (path : Text) :
    Option Entry :=
  (view.place? s path).bind (view.held s)

/-- The disk, with its own places. -/
def Disk.view : Disk.store.View Place where
  place? := Disk.place?
  held := Disk.entry?
  replaced := by
    intro d d' path content h
    obtain ⟨place, hplace, hentry, rfl⟩ := Disk.replace_eq_ok h
    have htop : place ≠ [] := by
      rintro rfl
      exact hentry rfl
    refine ⟨place, Disk.place?_eq_some_iff.2 hplace, Disk.place?_put_file hentry content, ?_,
      fun other hother => ?_⟩
    · rw [Disk.entry_put htop, if_pos rfl]
    · rw [Disk.entry_put htop, if_neg hother]

/-- A store that refuses to write some path names. -/
def Store.refusing {σ : Type} (store : Store σ) (refusal? : Text → Option IoError) : Store σ where
  replace s path content :=
    match refusal? path with
    | some error => .error error
    | none => store.replace s path content

/-- The same view of a store that refuses some files. -/
def Store.View.refusing {σ κ : Type} {store : Store σ} (view : store.View κ)
    (refusal? : Text → Option IoError) : (store.refusing refusal?).View κ where
  place? := view.place?
  held := view.held
  replaced := by
    intro s s' path content h
    simp only [Store.refusing] at h
    split at h
    · cases h
    · exact view.replaced h

-- ================================================================= applying

/-- The path name of the file of an analysis. -/
def Analysis.pathIn (root : Text) (a : Analysis) : Text :=
  Path.join root a.file

/-- Edits that cannot be applied are no fault of the disk. -/
theorem Edit.fault?_ne_io {path : Text} {length : Nat} {later : Option Edit} {edits : List Edit}
    {error : IoError} : Edit.fault? path length later edits ≠ some (.io error) := by
  induction edits generalizing later with
  | nil => simp [Edit.fault?]
  | cons e rest ih =>
      rw [Edit.fault?]
      split
      · simp [Edit.outside]
      · split
        · simp
        · exact ih

/-- Edits that do not apply are no fault of the disk. -/
theorem Edit.applyAll_ne_io {content : Bytes} {edits : List Edit} {path : Text}
    {error : IoError} : Edit.applyAll content edits path ≠ .error (.io error) := by
  unfold Edit.applyAll
  dsimp only
  split
  · rename_i fault hfault
    intro h
    cases h
    exact Edit.fault?_ne_io hfault
  · simp

/-- No edits leave the content as it is. -/
theorem Edit.applyAll_nil (content : Bytes) (path : Text) :
    Edit.applyAll content [] path = .ok content := by
  simp [Edit.applyAll, Edit.fromLast, Edit.fault?]

theorem Edit.applyAll_singleton (content : Bytes) (e : Edit) (path : Text) :
    Edit.applyAll content [e] path
      = if e.fits content.length then .ok (Edit.splice content e)
        else .error (Edit.outside path content.length e) := by
  cases hfits : e.fits content.length with
  | true => simp [Edit.applyAll, Edit.fromLast, Edit.fault?, hfits]
  | false => simp [Edit.applyAll, Edit.fromLast, Edit.fault?, hfits]

namespace Batch

open Edit (applyAll)

variable {σ κ : Type} {store : Store σ} {root : Text} {a : Analysis} {dryRun : Bool}

/-- Content that edits do not change is not written. -/
theorem updated?_of_ok {path : Text} {content out : Bytes} {edits : List Edit}
    (h : applyAll content edits path = .ok out) :
    updated? path content edits = .ok (if out = content then none else some out) := by
  unfold updated?
  split
  · rename_i hempty
    rw [List.isEmpty_iff.1 hempty, Edit.applyAll_nil] at h
    rw [if_pos (Except.ok.inj h).symm]
  · rw [h]
    rfl

/-- Edits that cannot be applied leave nothing to write. -/
theorem updated?_of_error {path : Text} {content : Bytes} {edits : List Edit} {fault : Fault}
    (h : applyAll content edits path = .error fault) :
    updated? path content edits = .error fault := by
  unfold updated?
  split
  · rename_i hempty
    rw [List.isEmpty_iff.1 hempty, Edit.applyAll_nil] at h
    cases h
  · rw [h]
    rfl

/-- The edits of an analysis apply. One that was not parsed has none to apply. -/
def Applies (root : Text) (a : Analysis) : Prop :=
  a.parseFailed = false → ∃ out, applyAll a.source a.edits (a.pathIn root) = .ok out

/-- The content that a file is to get, if that is another one. -/
def content? (root : Text) (a : Analysis) : Option Bytes :=
  if a.parseFailed then none
  else
    match applyAll a.source a.edits (a.pathIn root) with
    | .ok out => if out = a.source then none else some out
    | .error _ => none

theorem content?_of_ok {out : Bytes} (hparsed : a.parseFailed = false)
    (h : applyAll a.source a.edits (a.pathIn root) = .ok out) :
    content? root a = if out = a.source then none else some out := by
  unfold content?
  rw [hparsed, if_neg Bool.false_ne_true, h]

-- ================================================================= one file

/-- What one file leaves of the outcome and the store so far. -/
def handle (store : Store σ) (root : Text) (dryRun : Bool) (reached : BatchOutcome × σ)
    (a : Analysis) : BatchOutcome × σ :=
  match content? root a with
  | none => reached
  | some out =>
    if dryRun then (reached.1.addChanged true a.edits.length a.file, reached.2)
    else
      match store.replace reached.2 (a.pathIn root) out with
      | .ok written => (reached.1.addChanged false a.edits.length a.file, written)
      | .error error => (reached.1.addFailed a.file error, reached.2)

/-- A batch goes on after each file, with what was reached so far. -/
theorem applyFrom_cons (h : Applies root a) (rest : List Analysis) (done : BatchOutcome) (s : σ) :
    applyFrom store root dryRun (a :: rest) done s
      = applyFrom store root dryRun rest (handle store root dryRun (done, s) a).1
          (handle store root dryRun (done, s) a).2 := by
  rw [applyFrom]
  cases hparsed : a.parseFailed with
  | true =>
      have hnone : content? root a = none := by
        unfold content?
        rw [hparsed, if_pos rfl]
      rw [if_pos rfl, handle, hnone]
  | false =>
      obtain ⟨out, hout⟩ := h hparsed
      rw [if_neg Bool.false_ne_true, handle, content?_of_ok hparsed hout, updateFile]
      rw [show updated? (Path.join root a.file) a.source a.edits = _ from updated?_of_ok hout]
      by_cases hsame : out = a.source
      · rw [if_pos hsame]
      · rw [if_neg hsame]
        cases dryRun with
        | true => rfl
        | false =>
            unfold Analysis.pathIn
            cases hreplace : store.replace s (Path.join root a.file) out with
            | error error => simp [hreplace]
            | ok written => simp [hreplace]

/-- A batch goes through its files one by one, as long as their edits apply. -/
theorem applyFrom_append {front : List Analysis} (h : ∀ a ∈ front, Applies root a)
    (rest : List Analysis) (done : BatchOutcome) (s : σ) :
    applyFrom store root dryRun (front ++ rest) done s
      = applyFrom store root dryRun rest
          (front.foldl (handle store root dryRun) (done, s)).1
          (front.foldl (handle store root dryRun) (done, s)).2 := by
  induction front generalizing done s with
  | nil => rfl
  | cons a front ih =>
      rw [List.cons_append, applyFrom_cons (h a List.mem_cons_self),
        ih fun b hb => h b (List.mem_cons_of_mem _ hb)]
      rfl

/-- A batch handles its files one after the other. -/
theorem apply_eq_handle {analyses : List Analysis} (h : ∀ a ∈ analyses, Applies root a) (s : σ) :
    apply store root analyses dryRun s
      = (.ok (analyses.foldl (handle store root dryRun) (.empty, s)).1,
          (analyses.foldl (handle store root dryRun) (.empty, s)).2) := by
  have happend : applyFrom store root dryRun (analyses ++ []) .empty s = _ :=
    applyFrom_append h [] .empty s
  rw [List.append_nil] at happend
  exact happend

/-- Edits that do not apply end a batch. -/
theorem applyFrom_of_error {fault : Fault} (hparsed : a.parseFailed = false)
    (h : applyAll a.source a.edits (a.pathIn root) = .error fault) (rest : List Analysis)
    (done : BatchOutcome) (s : σ) :
    applyFrom store root dryRun (a :: rest) done s = (.error fault, s) := by
  rw [applyFrom, hparsed, if_neg Bool.false_ne_true, updateFile]
  rw [show updated? (Path.join root a.file) a.source a.edits = _ from updated?_of_error h]
  cases fault with
  | io error => exact absurd h Edit.applyAll_ne_io
  | _ => rfl

-- ================================================================== dry run

/-- A dry run writes nothing for a file, -/
theorem handle_dry_state (reached : BatchOutcome × σ) (a : Analysis) :
    (handle store root true reached a).2 = reached.2 := by
  unfold handle
  split
  · rfl
  · rfl

/-- and so for any number of files. -/
theorem foldl_handle_dry_state (analyses : List Analysis) (reached : BatchOutcome × σ) :
    (analyses.foldl (handle store root true) reached).2 = reached.2 := by
  induction analyses generalizing reached with
  | nil => rfl
  | cons a rest ih => exact (ih _).trans (handle_dry_state reached a)

/-- A dry run has foretold what the other run has done so far. -/
def InStep (dry real : BatchOutcome) : Prop :=
  dry.filesChanged = real.filesChanged + real.writeFailures

theorem warnings_info (log : Log) (message : Text) :
    (log.info message).warnings = log.warnings := by
  unfold Log.warnings Log.info
  rw [List.countP_append]
  rfl

theorem warnings_warn (log : Log) (message : Text) :
    (log.warn message).warnings = log.warnings + 1 := by
  unfold Log.warnings Log.warn
  rw [List.countP_append]
  rfl

theorem writeFailures_addChanged (o : BatchOutcome) (dryRun : Bool) (edits : Nat) (file : Text) :
    (o.addChanged dryRun edits file).writeFailures = o.writeFailures :=
  warnings_info o.log _

/-- A file that cannot be written counts as a failure. -/
theorem writeFailures_addFailed (o : BatchOutcome) (file : Text) (error : IoError) :
    (o.addFailed file error).writeFailures = o.writeFailures + 1 :=
  warnings_warn o.log _

/-- A dry run and a real one count the same for each file, but for failures to write. -/
theorem inStep_handle {dry real : BatchOutcome × σ} (h : InStep dry.1 real.1) (a : Analysis) :
    InStep (handle store root true dry a).1 (handle store root false real a).1 := by
  unfold InStep handle at *
  cases content? root a with
  | none => exact h
  | some out =>
      cases hreplace : store.replace real.2 (a.pathIn root) out with
      | ok written =>
          simp only [if_true, Bool.false_eq_true, if_false, hreplace, writeFailures_addChanged]
          simp only [BatchOutcome.addChanged]
          omega
      | error error =>
          simp only [if_true, Bool.false_eq_true, if_false, hreplace, writeFailures_addFailed]
          simp only [BatchOutcome.addChanged, BatchOutcome.addFailed]
          omega

/-- They stay in step over all files. -/
theorem inStep_foldl_handle (analyses : List Analysis) {dry real : BatchOutcome × σ}
    (h : InStep dry.1 real.1) :
    InStep (analyses.foldl (handle store root true) dry).1
      (analyses.foldl (handle store root false) real).1 := by
  induction analyses generalizing dry real with
  | nil => exact h
  | cons a rest ih => exact ih (inStep_handle h a)

-- =================================================================== places

/-- A step leaves the store as it is, or has replaced its own file. -/
theorem handle_state (store : Store σ) (root : Text) (reached : BatchOutcome × σ)
    (a : Analysis) :
    (handle store root false reached a).2 = reached.2
      ∨ ∃ out, store.replace reached.2 (a.pathIn root) out
          = .ok (handle store root false reached a).2 := by
  unfold handle
  split
  · exact Or.inl rfl
  · rename_i out hout
    simp only [Bool.false_eq_true, if_false]
    cases hreplace : store.replace reached.2 (a.pathIn root) out with
    | ok written => exact Or.inr ⟨out, hreplace⟩
    | error error => exact Or.inl rfl

variable (view : store.View κ) (root)

/-- Handling a file moves no file. -/
theorem place?_handle (reached : BatchOutcome × σ) (a : Analysis) :
    view.place? (handle store root false reached a).2 = view.place? reached.2 := by
  rcases handle_state store root reached a with heq | ⟨out, hout⟩
  · rw [heq]
  · obtain ⟨-, -, hplaces, -⟩ := view.replaced hout
    exact hplaces

/-- Handling a file changes no other place. -/
theorem held_handle_of_ne {reached : BatchOutcome × σ} {place : κ}
    (h : view.place? reached.2 (a.pathIn root) ≠ some place) :
    view.held (handle store root false reached a).2 place = view.held reached.2 place := by
  rcases handle_state store root reached a with heq | ⟨out, hout⟩
  · rw [heq]
  · obtain ⟨own, hown, -, -, hothers⟩ := view.replaced hout
    refine hothers place ?_
    rintro rfl
    exact h hown

/-- A batch changes no place but those of its files. -/
theorem foldl_handle_frame (analyses : List Analysis) (reached : BatchOutcome × σ) :
    view.place? (analyses.foldl (handle store root false) reached).2 = view.place? reached.2
      ∧ ∀ place, (∀ a ∈ analyses, view.place? reached.2 (a.pathIn root) ≠ some place) →
          view.held (analyses.foldl (handle store root false) reached).2 place
            = view.held reached.2 place := by
  induction analyses generalizing reached with
  | nil => exact ⟨rfl, fun _ _ => rfl⟩
  | cons a rest ih =>
      have hplaces := place?_handle root view reached a
      obtain ⟨ihplaces, ihentries⟩ := ih (handle store root false reached a)
      refine ⟨ihplaces.trans hplaces, fun place hapart => ?_⟩
      rw [List.foldl_cons, ihentries place,
        held_handle_of_ne root view (hapart a List.mem_cons_self)]
      intro b hb
      rw [hplaces]
      exact hapart b (List.mem_cons_of_mem _ hb)

/-- Two path names do not lead to one place. -/
def Apart (s : σ) (path other : Text) : Prop :=
  ∀ place, view.place? s path = some place → view.place? s other ≠ some place

/-- A path name leads to the same after files elsewhere were handled. -/
theorem at?_foldl_handle {path : Text} {analyses : List Analysis} {reached : BatchOutcome × σ}
    (hapart : ∀ a ∈ analyses, Apart view reached.2 path (a.pathIn root)) :
    view.at? (analyses.foldl (handle store root false) reached).2 path
      = view.at? reached.2 path := by
  obtain ⟨hplaces, hentries⟩ := foldl_handle_frame root view analyses reached
  unfold Store.View.at?
  rw [hplaces]
  cases hplace : view.place? reached.2 path with
  | none => rfl
  | some place => exact hentries place fun a ha => hapart a ha place hplace

/-- A file that was replaced has the new content. -/
theorem at?_of_replace {s s' : σ} {path : Text} {out : Bytes}
    (h : store.replace s path out = .ok s') : view.at? s' path = some (.file out) := by
  obtain ⟨place, hplace, hplaces, hentry, -⟩ := view.replaced h
  unfold Store.View.at?
  rw [hplaces, hplace]
  exact hentry

-- ============================================================== whole batch

/-- What a batch has made of one file: of what its path name led to in `s`,
in `final`, when the store was `reached` as its turn came. -/
structure Settled (s reached final : σ) (a : Analysis) : Prop where
  unparsed : a.parseFailed = true → view.at? final (a.pathIn root) = view.at? s (a.pathIn root)
  same : a.parseFailed = false → applyAll a.source a.edits (a.pathIn root) = .ok a.source →
    view.at? final (a.pathIn root) = view.at? s (a.pathIn root)
  refused : ∀ out error, a.parseFailed = false →
    applyAll a.source a.edits (a.pathIn root) = .ok out → out ≠ a.source →
    store.replace reached (a.pathIn root) out = .error error →
    view.at? final (a.pathIn root) = view.at? s (a.pathIn root)
  written : ∀ out s', a.parseFailed = false →
    applyAll a.source a.edits (a.pathIn root) = .ok out → out ≠ a.source →
    store.replace reached (a.pathIn root) out = .ok s' →
    view.at? final (a.pathIn root) = some (.file out)

/-- The files of some analyses are at different places. -/
def Distinct (s : σ) (analyses : List Analysis) : Prop :=
  analyses.Pairwise fun a b => Apart view s (a.pathIn root) (b.pathIn root)

/-- Handling a file leaves it as it was, or with all of its edits. -/
theorem settled_handle (reached : BatchOutcome × σ) (a : Analysis) :
    Settled root view reached.2 reached.2 (handle store root false reached a).2 a where
  unparsed := by
    intro hfailed
    rw [handle, content?, hfailed, if_pos rfl]
  same := by
    intro hparsed hout
    rw [handle, content?_of_ok hparsed hout, if_pos rfl]
  refused := by
    intro out error hparsed hout hne hreplace
    rw [handle, content?_of_ok hparsed hout, if_neg hne]
    simp only [Bool.false_eq_true, if_false, hreplace]
  written := by
    intro out s' hparsed hout hne hreplace
    rw [handle, content?_of_ok hparsed hout, if_neg hne]
    simp only [Bool.false_eq_true, if_false, hreplace]
    exact at?_of_replace view hreplace

/-- What is settled at the turn of a file stays settled: the files before it and
after it are elsewhere. -/
theorem settled_foldl_handle {front back : List Analysis} {a : Analysis} {done : BatchOutcome}
    {s : σ} (hdistinct : Distinct root view s (front ++ a :: back)) :
    Settled root view s (front.foldl (handle store root false) (done, s)).2
      ((front ++ a :: back).foldl (handle store root false) (done, s)).2 a := by
  obtain ⟨-, hback, hfront⟩ := List.pairwise_append.1 hdistinct
  have hplaces := (foldl_handle_frame root view front (done, s)).1
  have hturn := place?_handle root view (front.foldl (handle store root false) (done, s)) a
  -- up to the turn of the file
  have hbefore : view.at? (front.foldl (handle store root false) (done, s)).2 (a.pathIn root)
      = view.at? s (a.pathIn root) := by
    refine at?_foldl_handle root view fun b hb place hplace hother => ?_
    exact hfront b hb a List.mem_cons_self place hother hplace
  -- and from then on
  have hafter : view.at? ((front ++ a :: back).foldl (handle store root false) (done, s)).2
        (a.pathIn root)
      = view.at? (handle store root false (front.foldl (handle store root false) (done, s)) a).2
          (a.pathIn root) := by
    rw [List.foldl_append, List.foldl_cons]
    refine at?_foldl_handle root view fun b hb place hplace => ?_
    rw [hturn, hplaces] at hplace ⊢
    exact (List.pairwise_cons.1 hback).1 b hb place hplace
  obtain ⟨hunparsed, hsame, hrefused, hwritten⟩ :=
    settled_handle root view (front.foldl (handle store root false) (done, s)) a
  rw [hbefore, ← hafter] at hunparsed hsame hrefused
  rw [← hafter] at hwritten
  exact ⟨hunparsed, hsame, hrefused, hwritten⟩

/-- A batch of which all edits apply ends well, whichever writes fail. Every file
is replaced as a whole or left as it was, nothing else is touched, and a dry
run touches nothing and counts what will be changed or fail. Where some edits
do not apply, both runs end with the fault of the first that do not. -/
theorem apply_perFileAtomic (analyses : List Analysis) (s : σ) :
    (Distinct root view s analyses → (∀ a ∈ analyses, Applies root a) →
      ∃ real dry final,
        apply store root analyses false s = (.ok real, final)
        ∧ apply store root analyses true s = (.ok dry, s)
        ∧ dry.filesChanged = real.filesChanged + real.writeFailures
        ∧ (∀ place, (∀ a ∈ analyses, view.place? s (a.pathIn root) ≠ some place) →
            view.held final place = view.held s place)
        ∧ ∀ front a back, analyses = front ++ a :: back →
            Settled root view s (apply store root front false s).2 final a)
    ∧ ∀ front a back fault, analyses = front ++ a :: back → (∀ b ∈ front, Applies root b) →
        a.parseFailed = false → applyAll a.source a.edits (a.pathIn root) = .error fault →
        (apply store root analyses false s).1 = .error fault
        ∧ apply store root analyses true s = (.error fault, s) := by
  constructor
  · intro hdistinct happlies
    refine ⟨_, _, _, apply_eq_handle happlies s, ?_, inStep_foldl_handle analyses rfl,
      (foldl_handle_frame root view analyses (.empty, s)).2, ?_⟩
    · rw [apply_eq_handle happlies s, foldl_handle_dry_state]
    · rintro front a back rfl
      rw [apply_eq_handle (fun b hb => happlies b (List.mem_append_left _ hb)) s]
      exact settled_foldl_handle root view hdistinct
  · rintro front a back fault rfl hfront hparsed herror
    have hends : ∀ dryRun, apply store root (front ++ a :: back) dryRun s
        = (.error fault, (front.foldl (handle store root dryRun) (.empty, s)).2) := by
      intro dryRun
      rw [apply, applyFrom_append hfront, applyFrom_of_error hparsed herror]
    refine ⟨?_, ?_⟩
    · rw [hends]
    · rw [hends, foldl_handle_dry_state]

/-- A disk with some files below `/site`. -/
def siteDisk : Disk where
  entries :=
    [(["site"], .directory), (["site", "a.php"], .file (Bytes.ofText "aX")),
      (["site", "b.php"], .file (Bytes.ofText "bX")), (["site", "c.php"], .file (Bytes.ofText "c")),
      (["site", "d.php"], .file (Bytes.ofText "dX"))]
  here := []
  temporarySuffix := "0"

/-- An analysis that asks for one edit. -/
def oneEdit (file source : Text) (span : Span) (code : Text) : Analysis where
  file := file
  source := Bytes.ofText source
  findings :=
    [⟨file, .root, ⟨span, 1, 1, span, [], [], ⟨false, false, false, false⟩⟩, none, none,
      ⟨.relativeDirectory, some code, [], false⟩⟩]
  log := Log.empty
  parseFailed := false

/-- One file to be written, one that is refused, one that was not parsed, and one
whose edit puts in what is there. -/
def siteBatch : List Analysis :=
  [oneEdit "a.php" "aX" ⟨0, 1⟩ "A", oneEdit "b.php" "bX" ⟨0, 1⟩ "B",
    Codebase.skipped "c.php" (.parseFailure "c.php" "?"), oneEdit "d.php" "dX" ⟨0, 1⟩ "d"]

/-- An analysis with an edit beyond the end of its file. -/
def outOfRange : Analysis :=
  oneEdit "e.php" "e" ⟨0, 9⟩ "E"

/-- A disk that does not let one of the files be written. -/
def refuseB : Text → Option IoError := fun path =>
  if path = "/site/b.php" then some (.os .permissionDenied) else none

theorem apply_perFileAtomic_siteBatch :
    (∃ real dry final,
      apply (Disk.store.refusing refuseB) "/site" siteBatch false siteDisk = (.ok real, final)
      ∧ apply (Disk.store.refusing refuseB) "/site" siteBatch true siteDisk = (.ok dry, siteDisk)
      ∧ dry.filesChanged = real.filesChanged + real.writeFailures
      ∧ final.entry? ["site"] = some .directory
      ∧ (Disk.view.refusing refuseB).at? final "/site/a.php" = some (.file (Bytes.ofText "AX"))
      ∧ (Disk.view.refusing refuseB).at? final "/site/b.php" = some (.file (Bytes.ofText "bX"))
      ∧ (Disk.view.refusing refuseB).at? final "/site/c.php" = some (.file (Bytes.ofText "c"))
      ∧ (Disk.view.refusing refuseB).at? final "/site/d.php" = some (.file (Bytes.ofText "dX")))
    ∧ (apply (Disk.store.refusing refuseB) "/site" (siteBatch ++ [outOfRange]) false siteDisk).1
        = .error (Edit.outside "/site/e.php" 1 ⟨⟨0, 9⟩, "E"⟩)
    ∧ apply (Disk.store.refusing refuseB) "/site" (siteBatch ++ [outOfRange]) true siteDisk
        = (.error (Edit.outside "/site/e.php" 1 ⟨⟨0, 9⟩, "E"⟩), siteDisk) := by
  have happlies : ∀ a ∈ siteBatch, Applies "/site" a := by
    intro a ha hparsed
    simp only [siteBatch, List.mem_cons, List.not_mem_nil, or_false] at ha
    rcases ha with rfl | rfl | rfl | rfl
    · exact ⟨_, Edit.applyAll_singleton ..⟩
    · exact ⟨_, Edit.applyAll_singleton ..⟩
    · cases hparsed
    · exact ⟨_, Edit.applyAll_singleton ..⟩
  have hdistinct : Distinct "/site" (Disk.view.refusing refuseB) siteDisk siteBatch := by
    have hplaces : siteBatch.Pairwise fun a b =>
        Disk.view.place? siteDisk (a.pathIn "/site")
          ≠ Disk.view.place? siteDisk (b.pathIn "/site") := by
      decide +kernel
    exact hplaces.imp fun hne place ha hb => hne (ha.trans hb.symm)
  obtain ⟨real, dry, final, hreal, hdry, hcount, hframe, hsettled⟩ :=
    (apply_perFileAtomic "/site" (Disk.view.refusing refuseB) siteBatch siteDisk).1
      hdistinct happlies
  refine ⟨⟨real, dry, final, hreal, hdry, hcount, ?_, ?_, ?_, ?_, ?_⟩, ?_⟩
  · exact hframe ["site"] (by decide +kernel)
  · exact (hsettled [] _ _ rfl).written (Bytes.ofText "AX") _ rfl (Edit.applyAll_singleton ..)
      (by decide +kernel) rfl
  · exact (hsettled [_] _ _ rfl).refused (Bytes.ofText "BX") _ rfl (Edit.applyAll_singleton ..)
      (by decide +kernel) rfl
  · exact (hsettled [_, _] _ _ rfl).unparsed rfl
  · exact (hsettled [_, _, _] _ _ rfl).same rfl (Edit.applyAll_singleton ..)
  · exact (apply_perFileAtomic "/site" (Disk.view.refusing refuseB) _ siteDisk).2
      siteBatch outOfRange [] _ rfl happlies rfl (Edit.applyAll_singleton ..)

end Batch

end ComponentPaths
