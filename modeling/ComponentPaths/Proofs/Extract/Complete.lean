/-
What an extraction takes along.

The files of a component's directory are all copied, but for those that lie in
the directory of a plugin type further down (`mem_componentFiles`). Ownership
does not enter into it. In the directory of a nested type, a plugin of that
type owns what is below its name; but a file there that is below no such name
is still owned by the component around, and stays behind nevertheless
(`owned_file_left`).

Copying is a run over the files. One step puts one file at one place
(`copyFile_eq_ok`), which is below the new directory and nowhere else, so the
disk grows and the sources stay what they are, and so do the copies made before
(`NewDirectory.copyFile`, `NewDirectory.copyFiles`). That the new directory is
new rests on its path name having no steps up.
-/
import ComponentPaths.Extract
import ComponentPaths.Proofs.Disk.Growing
import ComponentPaths.Proofs.Tree.Loading
import ComponentPaths.Proofs.Tree.Plugins

namespace ComponentPaths

open Relative (IsName)
open Symbolic

/-- The segments of a plain path are names. -/
theorem PlainPath.isName {file : Text} (h : PlainPath file) :
    ∀ s ∈ Text.splitSlash file, IsName s := by
  intro s hs
  obtain ⟨hne, hdot, hup⟩ := h.names s hs
  exact ⟨hne, Text.not_mem_of_mem_splitSlash hs, hdot, hup⟩

theorem PlainPath.properSegments_eq {file : Text} (h : PlainPath file) :
    properSegments file = Text.splitSlash file := by
  unfold properSegments
  rw [segments_eq_splitSlash h.known, List.filter_eq_self]
  intro s hs
  simpa using (h.names s hs).1

-- ============================================================ nested types

namespace ComponentTree

variable {tree : ComponentTree} {parts names way : List Text} {front sub : Text}

/-- On every tree there is, directories are marked by their segments. -/
theorem Built.cut (h : tree.Built) : tree.Marked Cut := by
  cases h with
  | empty => exact marked_empty
  | ofManifests primary plugins => exact cut_ofManifests primary plugins
  | load h =>
      obtain ⟨primary, plugins, rfl⟩ := exists_ofManifests_of_load h
      exact cut_ofManifests primary plugins

/-- A marked directory is marked by the segments of its path. -/
theorem Marked.mem_markedDirs_iff (h : tree.Marked Cut) {marker : Marker}
    (hnames : ∀ s ∈ names, IsName s) (hne : names ≠ []) :
    (Text.joinSlash names, marker) ∈ tree.markedDirs ↔ tree.markerAt names = some marker := by
  constructor
  · intro hmem
    obtain ⟨dir, hmark, htext⟩ := exists_dir_of_mem_markedDirs h.ordered hmem
    have hdir : dir ≠ [] := by
      rintro rfl
      exact Path.joinSlash_names_ne_nil hnames hne htext
    have hsplit : Text.splitSlash (Text.joinSlash dir) = dir :=
      List.splitOn_intercalate '/' (fun s hs => (h.marks dir marker hmark s hs).2) hdir
    rw [← Text.splitSlash_names hnames hne, htext, hsplit]
    exact hmark
  · intro hmark
    exact List.mem_map.2 ⟨(names, marker), (mem_marked h.ordered).2 hmark, rfl⟩

/-- Types below a directory are listed by their directories. -/
theorem mem_nestedPluginTypeDirs (h : tree.Marked Cut) (hparts : ∀ s ∈ parts, IsName s)
    (hne : parts ≠ []) (hway : ∀ s ∈ way, IsName s) :
    Text.joinSlash (parts ++ way) ∈ tree.nestedPluginTypeDirs (Text.joinSlash parts)
      ↔ way ≠ [] ∧ ∃ sub, tree.markerAt (parts ++ way) = some (.pluginTypeRoot sub) := by
  have hall : ∀ s ∈ parts ++ way, IsName s := List.forall_mem_append.2 ⟨hparts, hway⟩
  have hall' : parts ++ way ≠ [] := by simp [hne]
  unfold nestedPluginTypeDirs
  rw [Text.dropEndWhile_slash_eq_self (Path.getLast?_names hparts), List.mem_map]
  constructor
  · rintro ⟨⟨text, marker⟩, hmem, htext⟩
    obtain rfl : text = Text.joinSlash (parts ++ way) := htext
    obtain ⟨hmem, hkept⟩ := List.mem_filter.1 hmem
    rw [Bool.and_eq_true, List.isPrefixOf_iff_prefix] at hkept
    obtain ⟨htype, hbegins⟩ := hkept
    refine ⟨?_, ?_⟩
    · rintro rfl
      have hlength : (Text.joinSlash parts ++ ['/']).length
          ≤ (Text.joinSlash (parts ++ [])).length := hbegins.length_le
      rw [List.length_append, List.length_singleton, List.append_nil] at hlength
      omega
    · have hmark := (h.mem_markedDirs_iff hall hall').1 hmem
      cases marker with
      | pluginTypeRoot sub => exact ⟨sub, hmark⟩
      | _ => cases htype
  · rintro ⟨hway', sub, hmark⟩
    refine ⟨(Text.joinSlash (parts ++ way), .pluginTypeRoot sub), List.mem_filter.2 ⟨?_, ?_⟩, rfl⟩
    · exact (h.mem_markedDirs_iff hall hall').2 hmark
    · rw [Bool.and_eq_true, List.isPrefixOf_iff_prefix]
      refine ⟨rfl, ?_⟩
      rw [Text.joinSlash_append hne hway']
      exact ⟨_, (List.append_cons _ _ _).symm⟩

/-- The directory of a plugin type below a directory and above a file. -/
structure NestedType (tree : ComponentTree) (dir file front sub : Text) : Prop where
  marked : (front, .pluginTypeRoot sub) ∈ tree.markedDirs
  below : dir ++ ['/'] <+: front
  above : front ++ ['/'] <+: file

/-- A nested type by the segments that lead to it. -/
theorem nestedType_iff (h : tree.Marked Cut) (hparts : ∀ s ∈ parts, IsName s) (hne : parts ≠ [])
    (hnames : ∀ s ∈ names, IsName s) (hne' : names ≠ []) :
    NestedType tree (Text.joinSlash parts) (Text.joinSlash (parts ++ names)) front sub
      ↔ ∃ way, front = Text.joinSlash (parts ++ way) ∧ way ≠ [] ∧ way <+: names.dropLast
        ∧ tree.markerAt (parts ++ way) = some (.pluginTypeRoot sub) := by
  constructor
  · rintro ⟨hmarked, ⟨down, rfl⟩, ⟨rest, hrest⟩⟩
    simp only [← List.append_cons] at hmarked hrest ⊢
    have hsplit := congrArg Text.splitSlash hrest
    rw [Text.splitSlash_append_slash, Text.splitSlash_append_slash,
      Text.splitSlash_names hparts hne,
      Text.splitSlash_names (List.forall_mem_append.2 ⟨hparts, hnames⟩) (by simp [hne]),
      List.append_assoc, List.append_cancel_left_eq] at hsplit
    have hdown : ∀ s ∈ Text.splitSlash down, IsName s := fun s hs =>
      hnames s (hsplit ▸ List.mem_append_left _ hs)
    have hfront : Text.joinSlash parts ++ '/' :: down
        = Text.joinSlash (parts ++ Text.splitSlash down) := by
      rw [Text.joinSlash_append hne (Text.splitSlash_ne_nil down), Text.joinSlash_splitSlash]
    rw [hfront] at hmarked
    refine ⟨Text.splitSlash down, hfront, Text.splitSlash_ne_nil down, ?_, ?_⟩
    · exact (Disk.prefix_dropLast_iff hne').2 ⟨_, Text.splitSlash_ne_nil rest, hsplit.symm⟩
    · exact (h.mem_markedDirs_iff (List.forall_mem_append.2 ⟨hparts, hdown⟩)
        (by simp [hne])).1 hmarked
  · rintro ⟨way, rfl, hway, hbegins, hmark⟩
    obtain ⟨rest, hrest, rfl⟩ := (Disk.prefix_dropLast_iff hne').1 hbegins
    have hwayNames : ∀ s ∈ way, IsName s := fun s hs => hnames s (List.mem_append_left _ hs)
    refine ⟨?_, ?_, ?_⟩
    · exact (h.mem_markedDirs_iff (List.forall_mem_append.2 ⟨hparts, hwayNames⟩)
        (by simp [hne])).2 hmark
    · rw [Text.joinSlash_append hne hway]
      exact ⟨_, (List.append_cons _ _ _).symm⟩
    · rw [← List.append_assoc, Text.joinSlash_append (by simp [hne]) hrest]
      exact ⟨_, (List.append_cons _ _ _).symm⟩

theorem splitDir_names (h : ∀ s ∈ names, IsName s) : splitDir (Text.joinSlash names) = names := by
  by_cases hne : names = []
  · subst hne
    rfl
  unfold splitDir
  rw [Text.splitSlash_names h hne, List.filter_eq_self]
  intro s hs
  have hcounts : (!Path.isVoid s) = true := by rw [(h s hs).not_void, Bool.not_false]
  rwa [Path.isVoid, Bool.not_or] at hcounts

/-- In the directory of a type, a name that the tree does not know is a plugin
and owns what is below it. -/
theorem fileOwner_in_typeDir (htree : tree.Marked Cut) {file segment : Text} {rest : List Text}
    (hplain : PlainPath file) (hmarked : (front, .pluginTypeRoot sub) ∈ tree.markedDirs)
    (hsplit : Text.splitSlash file = Text.splitSlash front ++ segment :: rest)
    (hvalid : PluginName.isValid sub segment = true)
    (hunknown : tree.lookup? (front ++ '/' :: segment) = none) :
    tree.fileOwner file = ⟨.plugin sub segment, Text.joinSlash rest⟩ := by
  have hnames : ∀ s ∈ Text.splitSlash front ++ [segment], IsName s := by
    intro s hs
    apply hplain.isName
    rw [hsplit, List.append_cons]
    exact List.mem_append_left _ hs
  have hmark : tree.markerAt (Text.splitSlash front) = some (.pluginTypeRoot sub) := by
    rw [← Text.joinSlash_splitSlash front] at hmarked
    refine (htree.mem_markedDirs_iff ?_ (Text.splitSlash_ne_nil front)).1 hmarked
    intro s hs
    exact hnames s (List.mem_append_left _ hs)
  have hout : descend? (Text.splitSlash front ++ [segment]) tree = none := by
    rw [← splitDir_names hnames, Text.joinSlash_append (Text.splitSlash_ne_nil front) (by simp),
      Text.joinSlash_splitSlash, Text.joinSlash_singleton]
    exact hunknown
  have hbrace : '{' ∉ segment := by
    intro hmem
    apply hplain.known
    rw [← Text.joinSlash_splitSlash file, hsplit]
    exact (Text.infix_join (List.mem_append_right _ List.mem_cons_self)).subset hmem
  have hall : properSegments file ≠ [] := by
    rw [hplain.properSegments_eq]
    exact Text.splitSlash_ne_nil file
  unfold fileOwner
  rw [resolve?_eq_resolveFrom hall, hplain.properSegments_eq, hsplit,
    resolveFrom_typeDir hmark hout hbrace hvalid]
  rfl

end ComponentTree

namespace Extract

open ComponentTree

variable {tree : ComponentTree} {d : Disk} {root dir file output : Text}
  {parts names : List Text} {base : Place}

-- ================================================================ the files

/-- The files of a directory, but for those in the directory of a nested type. -/
theorem mem_componentFiles (htree : tree.Marked Cut) (hdisk : d.Sound)
    (hparts : ∀ s ∈ parts, IsName s) (hne : parts ≠ [])
    (hbase : d.locate (Path.join root (Text.joinSlash parts)) = .ok base)
    (hdir : d.entry? base = some .directory) :
    file ∈ componentFiles tree d root (Text.joinSlash parts)
      ↔ ∃ names, names ≠ [] ∧ (∃ content, (base ++ names, .file content) ∈ d.entries)
        ∧ file = Text.joinSlash (parts ++ names)
        ∧ ∀ way sub, way ≠ [] → way <+: names.dropLast →
          tree.markerAt (parts ++ way) ≠ some (.pluginTypeRoot sub) := by
  have hnameOf : ∀ way : Place, (∀ s ∈ way, IsName s) →
      Path.relativeName? root (Discovery.pathOf (Path.join root (Text.joinSlash parts)) way)
        = some (Text.joinSlash (parts ++ way)) := by
    intro way hway
    rw [Path.pathOf_join root hparts hne hway]
    exact Path.relativeName?_join root (List.forall_mem_append.2 ⟨hparts, hway⟩) (by simp [hne])
  have hpruned : ∀ way : Place, (∀ s ∈ way, IsName s) →
      ((Path.relativeName? root (Discovery.pathOf (Path.join root (Text.joinSlash parts)) way)).any
          (tree.nestedPluginTypeDirs (Text.joinSlash parts)).contains = false
        ↔ ∀ sub, way ≠ [] → tree.markerAt (parts ++ way) ≠ some (.pluginTypeRoot sub)) := by
    intro way hway
    rw [hnameOf way hway, Option.any_some, List.contains_eq_mem, decide_eq_false_iff_not,
      mem_nestedPluginTypeDirs htree hparts hne hway]
    constructor
    · intro hnot sub hne' hmark
      exact hnot ⟨hne', sub, hmark⟩
    · rintro hfree ⟨hne', sub, hmark⟩
      exact hfree sub hne' hmark
  unfold componentFiles Text.sort
  dsimp only
  rw [List.mem_mergeSort, List.mem_filterMap]
  simp only [Disk.mem_filesBelow hbase hdir]
  refine exists_congr fun names => ?_
  -- the names of entries are names, and so are those on the way
  have hway : ∀ content, (base ++ names, Entry.file content) ∈ d.entries → ∀ way : Place,
      way <+: names → ∀ s ∈ way, IsName s := by
    intro content hmem way hbegins s hs
    exact hdisk.names _ hmem s (List.mem_append_right _ (hbegins.subset hs))
  constructor
  · rintro ⟨⟨hne', ⟨content, hmem⟩, hskip⟩, hname⟩
    rw [hnameOf names (hway content hmem names List.prefix_rfl)] at hname
    refine ⟨hne', ⟨content, hmem⟩, (Option.some.inj hname).symm, fun way sub hnil hbegins => ?_⟩
    have hnames := hway content hmem way (hbegins.trans (List.dropLast_prefix names))
    exact (hpruned way hnames).1 (hskip way hbegins) sub hnil
  · rintro ⟨hne', ⟨content, hmem⟩, rfl, hfree⟩
    refine ⟨⟨hne', ⟨content, hmem⟩, fun way hbegins => ?_⟩,
      hnameOf names (hway content hmem names List.prefix_rfl)⟩
    have hnames := hway content hmem way (hbegins.trans (List.dropLast_prefix names))
    exact (hpruned way hnames).2 fun sub hnil => hfree way sub hnil hbegins

/-- A file is among the files of a directory around it unless there is a nested
type between the two. -/
theorem mem_componentFiles_iff_not_nested (htree : tree.Marked Cut) (hdisk : d.Sound)
    (hparts : ∀ s ∈ parts, IsName s) (hne : parts ≠ []) (hnames : ∀ s ∈ names, IsName s)
    (hne' : names ≠ [])
    (hfile : d.isFile (Path.join root (Text.joinSlash (parts ++ names))) = true) :
    Text.joinSlash (parts ++ names) ∈ componentFiles tree d root (Text.joinSlash parts)
      ↔ ∀ front sub, ¬NestedType tree (Text.joinSlash parts) (Text.joinSlash (parts ++ names))
        front sub := by
  obtain ⟨content, hread⟩ := Disk.exists_read_of_isFile hfile
  obtain ⟨place, hplace, hentry⟩ := Disk.stat_eq_ok_iff.1 (Disk.read_eq_ok_iff.1 hread)
  obtain ⟨base, hbase, hdir, rfl⟩ :=
    Disk.locate_join_append root hparts hne hnames hne' hplace
  have hmem := Disk.mem_entries (by simp [hne']) hentry
  rw [mem_componentFiles htree hdisk hparts hne hbase hdir]
  simp only [nestedType_iff htree hparts hne hnames hne']
  constructor
  · rintro ⟨names', -, ⟨content', hmem'⟩, htext, hfree⟩ front sub ⟨way, -, hway, hbegins, hmark⟩
    have hnames'' : ∀ s ∈ names', IsName s := fun s hs =>
      hdisk.names _ hmem' s (List.mem_append_right _ hs)
    have heq := Text.joinSlash_names_inj (List.forall_mem_append.2 ⟨hparts, hnames⟩)
      (by simp [hne]) (List.forall_mem_append.2 ⟨hparts, hnames''⟩) (by simp [hne]) htext
    obtain rfl := List.append_cancel_left heq
    exact hfree way sub hway hbegins hmark
  · intro hfree
    refine ⟨names, hne', ⟨content, hmem⟩, rfl, fun way sub hway hbegins hmark => ?_⟩
    exact hfree _ sub ⟨way, rfl, hway, hbegins, hmark⟩

-- ================================================================= copying

section Copying

variable {s s' : Disk} {source target path : Text} {content : Bytes}

/-- Reading a file leaves the disk as it is. -/
theorem perform_readFile :
    (readFile path).perform s = (.ok content, s') ↔ s.read path = .ok content ∧ s' = s := by
  unfold readFile
  rw [Work.perform_bind]
  constructor
  · rintro ⟨a, middle, hdisk, h⟩
    obtain ⟨rfl, rfl⟩ := Work.perform_disk.1 hdisk
    split at h
    · next found hread =>
      obtain ⟨rfl, rfl⟩ := Work.perform_pure.1 h
      exact ⟨hread, rfl⟩
    · exact absurd h Work.perform_throw
  · rintro ⟨hread, rfl⟩
    refine ⟨s', s', Work.perform_disk.2 ⟨rfl, rfl⟩, ?_⟩
    rw [hread]
    exact Work.perform_pure.2 ⟨rfl, rfl⟩

/-- What copying a file does, if it does all of it: there are more directories,
and one file is put twice, the second time with what the source has then. -/
theorem copyFile_eq_ok (h : (copyFile source target).perform s = (.ok (), s')) :
    ∃ made place content, Disk.Extends s made ∧ made.locate target = .ok place
      ∧ made.entry? place ≠ some .directory
      ∧ (made.put place (.file [])).read source = .ok content
      ∧ s' = (made.put place (.file [])).put place (.file content) := by
  have hdirs : ∃ made, Disk.Extends s made ∧ (do
      let _ ← readFile source
      Work.attempt (·.write target [])
      let content ← readFile source
      Work.attempt (·.write target content) : Work Unit).perform made = (.ok (), s') := by
    unfold copyFile at h
    split at h
    · next dir hparent =>
      obtain ⟨⟨⟩, made, hmade, h⟩ := Work.perform_bind.1 h
      exact ⟨made, Disk.extends_makeDirs (Work.perform_attempt.1 hmade), h⟩
    · exact ⟨s, .refl s, h⟩
  obtain ⟨made, hgrow, hmade⟩ := hdirs
  obtain ⟨first, middle, hfirst, hrest⟩ := Work.perform_bind.1 hmade
  obtain rfl := (perform_readFile.1 hfirst).2
  obtain ⟨⟨⟩, emptied, hempty, hlast⟩ := Work.perform_bind.1 hrest
  obtain ⟨place, hplace, hentry, rfl⟩ := Disk.write_eq_ok (Work.perform_attempt.1 hempty)
  obtain ⟨content, again, hsecond, hwrite⟩ := Work.perform_bind.1 hlast
  obtain ⟨hread, rfl⟩ := perform_readFile.1 hsecond
  obtain ⟨place', hplace', -, rfl⟩ := Disk.write_eq_ok (Work.perform_attempt.1 hwrite)
  -- the emptied file is no directory, so the path name still leads to it
  rw [Disk.locate_put_file hentry, hplace] at hplace'
  cases hplace'
  exact ⟨middle, place, content, hgrow, hplace, hentry, hread, rfl⟩

/-- A directory to be made where there is none, by a path name without steps up. -/
structure NewDirectory (d : Disk) (output : Text) : Prop where
  sound : d.Sound
  named : output ≠ []
  noUp : (".." : Text) ∉ Text.splitSlash output
  missing : d.exists? output = false

/-- The place of a new directory. -/
def newPlace (d : Disk) (output : Text) : Place :=
  d.start output ++ (Text.splitSlash output).filter fun s => !Path.isVoid s

/-- Whatever was added to the disk, names lead from the new directory to places
that the disk did not have. -/
theorem NewDirectory.place_eq (h : NewDirectory d output) (hgrow : Disk.Extends d s)
    (hnames : ∀ s ∈ names, IsName s) (hne : names ≠ []) {place : Place}
    (hplace : s.locate (Path.join output (Text.joinSlash names)) = .ok place) :
    place = newPlace d output ++ names ∧ d.entry? place = none := by
  obtain ⟨base, hcheck, hdir, hfollow, rfl⟩ := Disk.follow_join h.named hnames hne hplace
  have hbase := Disk.follow_eq_of_noUp h.noUp hfollow
  have hstart : s.start output = d.start output := by
    unfold Disk.start
    rw [hgrow.here]
  refine ⟨?_, ?_⟩
  · rw [hbase, hstart]
    rfl
  · exact Disk.eq_none_of_not_exists h.sound hgrow h.noUp hcheck hdir hfollow h.missing
      (List.prefix_append base names)

/-- A file of the component has its copy. -/
def Copied (d s : Disk) (root output : Text) (parts names : List Text) : Prop :=
  ∀ content, d.read (Path.join root (Text.joinSlash (parts ++ names))) = .ok content →
    s.read (Path.join output (Text.joinSlash names)) = .ok content

/-- One file more is copied; nothing of the disk and none of the copies is lost. -/
theorem NewDirectory.copyFile (h : NewDirectory d output) (hgrow : Disk.Extends d s)
    (hnames : ∀ s ∈ names, IsName s) (hne : names ≠ [])
    (hcopy : (copyFile (Path.join root (Text.joinSlash (parts ++ names)))
      (Path.join output (Text.joinSlash names))).perform s = (.ok (), s')) :
    Disk.Extends d s' ∧ Copied d s' root output parts names
      ∧ ∀ other, (∀ s ∈ other, IsName s) → other ≠ [] → Copied d s root output parts other →
        Copied d s' root output parts other := by
  obtain ⟨made, place, content, hmade, hplace, hentry, hread, rfl⟩ := copyFile_eq_ok hcopy
  have hgrow' := hgrow.trans hmade
  obtain ⟨hplace', hnone⟩ := h.place_eq hgrow' hnames hne hplace
  have hempty := hgrow'.put hnone (.file [])
  have hentry' : Disk.entry? (made.put place (.file [])) place ≠ some .directory := by
    rw [ne_eq, Disk.directory_put_file_iff hentry]
    exact hentry
  have hcopied : Copied d ((made.put place (.file [])).put place (.file content)) root output
      parts names := by
    intro found hfound
    have hsame := hempty.read hfound
    rw [hread] at hsame
    cases hsame
    exact Disk.read_put_file hentry' ((Disk.locate_put_file hentry []).2 hplace) content
  refine ⟨hempty.put hnone (.file content), hcopied, fun other hother hne' hcopy' => ?_⟩
  by_cases heq : other = names
  · rw [heq]
    exact hcopied
  · intro found hfound
    have hmadeRead := hmade.read (hcopy' found hfound)
    -- another file is at another place
    have helsewhere : made.locate (Path.join output (Text.joinSlash other)) ≠ .ok place := by
      intro hsame
      have hplaces := (h.place_eq hgrow' hother hne' hsame).1
      rw [hplace', List.append_cancel_left_eq] at hplaces
      exact heq hplaces.symm
    apply Disk.read_put_file_of_ne hentry'
    · exact Disk.read_put_file_of_ne hentry hmadeRead helsewhere
    · rw [ne_eq, Disk.locate_put_file hentry]
      exact helsewhere

theorem inner_joinSlash (hparts : parts ≠ []) (hnames : ∀ s ∈ names, IsName s)
    (hne : names ≠ []) :
    inner (Text.joinSlash parts) (Text.joinSlash (parts ++ names)) = Text.joinSlash names := by
  have hrest : Text.dropHead? (Text.joinSlash parts) (Text.joinSlash (parts ++ names))
      = some ('/' :: Text.joinSlash names) :=
    Text.dropHead?_eq_some_iff.2 (Text.joinSlash_append hparts hne)
  have hfirst := Path.isAbsolute_names hnames
  unfold inner
  rw [hrest, Option.getD_some, List.dropWhile_cons_of_pos rfl]
  cases htext : Text.joinSlash names with
  | nil => rfl
  | cons c rest =>
      rw [htext] at hfirst
      exact List.dropWhile_cons_of_neg (by simpa [Path.isAbsolute] using hfirst)

/-- However many files are copied, the disk has grown, each of them has its copy,
and so have those that had one before. -/
theorem NewDirectory.copyFiles (h : NewDirectory d output) (hparts : parts ≠ [])
    {files : List Text}
    (hfiles : ∀ file ∈ files, ∃ names, names ≠ [] ∧ (∀ s ∈ names, IsName s)
      ∧ file = Text.joinSlash (parts ++ names))
    (hgrow : Disk.Extends d s)
    (hcopy : (copyFiles root (Text.joinSlash parts) output files).perform s = (.ok (), s')) :
    Disk.Extends d s' ∧ ∀ names, (∀ s ∈ names, IsName s) → names ≠ [] →
      Text.joinSlash (parts ++ names) ∈ files ∨ Copied d s root output parts names →
      Copied d s' root output parts names := by
  induction files generalizing s with
  | nil =>
      obtain ⟨-, rfl⟩ := Work.perform_pure.1 hcopy
      refine ⟨hgrow, fun names _ _ hor => ?_⟩
      exact hor.resolve_left List.not_mem_nil
  | cons file rest ih =>
      obtain ⟨⟨names, hne, hnames, rfl⟩, hrest⟩ := List.forall_mem_cons.1 hfiles
      rw [Extract.copyFiles, inner_joinSlash hparts hnames hne] at hcopy
      obtain ⟨⟨⟩, middle, hfirst, hlast⟩ := Work.perform_bind.1 hcopy
      obtain ⟨hgrow', hcopied, hkept⟩ := h.copyFile hgrow hnames hne hfirst
      obtain ⟨hgrow'', hall⟩ := ih hrest hgrow' hlast
      refine ⟨hgrow'', fun other hother hne' hor => hall other hother hne' ?_⟩
      rcases hor with hmem | hbefore
      · rcases List.mem_cons.1 hmem with heq | hmem
        · have hsame := congrArg (inner (Text.joinSlash parts)) heq
          rw [inner_joinSlash hparts hother hne', inner_joinSlash hparts hnames hne] at hsame
          obtain rfl := Text.joinSlash_names_inj hother hne' hnames hne hsame
          exact Or.inr hcopied
        · exact Or.inl hmem
      · exact Or.inr (hkept other hother hne' hbefore)

end Copying

-- ============================================================== extraction

variable {c : Codebase} {id type name : Text} {outcome : Outcome} {final : Disk}

/-- The directory of a component is there. -/
theorem sourceDir_eq_ok {component : Component}
    (h : sourceDir tree d root id = .ok (component, dir)) :
    Component.ofId? id = some component ∧ tree.componentDir? component = some dir
      ∧ d.isDir (Path.join root dir) = true := by
  unfold sourceDir at h
  split at h
  · cases h
  next found hid =>
  split at h
  · cases h
  next found' hdir =>
  split at h
  · cases h
  next hthere =>
  cases h
  refine ⟨hid, hdir, ?_⟩
  rw [Bool.or_eq_true, not_or, Bool.not_eq_true', Bool.not_eq_false] at hthere
  exact hthere.2

/-- What an extraction does, if it does all of it. -/
theorem extract_eq_ok (h : (extract c id output).perform d = (.ok outcome, final)) :
    d.exists? output = false ∧ ∃ component dir made copied,
      sourceDir c.tree d c.root id = .ok (component, dir)
      ∧ d.makeDirs output = .ok made
      ∧ (copyFiles c.root dir output (componentFiles c.tree d c.root dir)).perform made
        = (.ok (), copied)
      ∧ (rewriteCopies c dir output (componentFiles c.tree d c.root dir)).perform copied
        = (.ok outcome, final) := by
  unfold extract at h
  obtain ⟨disk, same, hdisk, hrest⟩ := Work.perform_bind.1 h
  obtain ⟨rfl, rfl⟩ := Work.perform_disk.1 hdisk
  split at hrest
  · obtain ⟨_, _, hthrow, -⟩ := Work.perform_bind.1 hrest
    exact absurd hthrow Work.perform_throw
  · next hmissing =>
    obtain ⟨⟨component, dir⟩, same, hsource, hmake⟩ := Work.perform_bind.1 hrest
    obtain ⟨hsource, rfl⟩ := Work.perform_ofExcept.1 hsource
    obtain ⟨⟨⟩, made, hmade, hcopy⟩ := Work.perform_bind.1 hmake
    obtain ⟨⟨⟩, copied, hcopied, hrewrite⟩ := Work.perform_bind.1 hcopy
    refine ⟨by simpa using hmissing, component, dir, made, copied, hsource, ?_, hcopied, hrewrite⟩
    exact Work.perform_attempt.1 hmade

/-- Every file among those of the component has its copy before any copy is
changed, and all else is as it was. -/
theorem copied_of_extract (htree : c.tree.Marked Cut) (hdisk : d.Sound)
    (hparts : ∀ s ∈ parts, IsName s) (hne : parts ≠ [])
    (hdir : c.tree.componentDir? (.plugin type name) = some (Text.joinSlash parts))
    (hid : Component.ofId? id = some (.plugin type name)) (hnamed : output ≠ [])
    (hup : (".." : Text) ∉ Text.splitSlash output)
    (h : (extract c id output).perform d = (.ok outcome, final)) :
    ∃ copied, Disk.Extends d copied
      ∧ (∀ names, (∀ s ∈ names, IsName s) → names ≠ [] →
        Text.joinSlash (parts ++ names)
          ∈ componentFiles c.tree d c.root (Text.joinSlash parts) →
        Copied d copied c.root output parts names)
      ∧ (rewriteCopies c (Text.joinSlash parts) output
          (componentFiles c.tree d c.root (Text.joinSlash parts))).perform copied
        = (.ok outcome, final) := by
  obtain ⟨hmissing, component, dir, made, copied, hsource, hmade, hcopy, hrewrite⟩ :=
    extract_eq_ok h
  obtain ⟨hid', hdir', hisDir⟩ := sourceDir_eq_ok hsource
  rw [hid] at hid'
  cases hid'
  rw [hdir] at hdir'
  cases hdir'
  obtain ⟨base, hbase, hentry⟩ := Disk.stat_eq_ok_iff.1 (Disk.stat_of_isDir hisDir)
  have hfiles : ∀ file ∈ componentFiles c.tree d c.root (Text.joinSlash parts),
      ∃ names, names ≠ [] ∧ (∀ s ∈ names, IsName s) ∧ file = Text.joinSlash (parts ++ names) := by
    intro file hfile
    obtain ⟨names, hne', ⟨content, hmem⟩, rfl, -⟩ :=
      (mem_componentFiles htree hdisk hparts hne hbase hentry).1 hfile
    exact ⟨names, hne', fun s hs => hdisk.names _ hmem s (List.mem_append_right _ hs), rfl⟩
  obtain ⟨hgrow, hall⟩ := NewDirectory.copyFiles ⟨hdisk, hnamed, hup, hmissing⟩ hne hfiles
    (Disk.extends_makeDirs hmade) hcopy
  exact ⟨copied, hgrow, fun names hnames hne' hmem => hall names hnames hne' (Or.inl hmem),
    hrewrite⟩

-- ================================================================= results

/-- A file of a plugin is taken along unless the directory of a nested type lies
between the two. Such a file is below no name of a plugin of that type, at least
none that the tree does not know. What is taken along is copied as it is. -/
theorem owned_file_extracted_iff (htree : c.tree.Built) (hdisk : d.Sound)
    (hdir : c.tree.componentDir? (.plugin type name) = some dir)
    (hbelow : dir ++ ['/'] <+: file) (hplain : PlainPath file)
    (hfile : d.isFile (Path.join c.root file) = true)
    (howner : (c.tree.fileOwner file).component = .plugin type name) :
    (file ∈ componentFiles c.tree d c.root dir
      ↔ ∀ front sub, ¬NestedType c.tree dir file front sub)
    ∧ (∀ front sub segment rest, NestedType c.tree dir file front sub →
      Text.splitSlash file = Text.splitSlash front ++ segment :: rest →
      PluginName.isValid sub segment = true →
      c.tree.lookup? (front ++ '/' :: segment) = none → sub = type ∧ segment = name)
    ∧ ∀ id output outcome final, Component.ofId? id = some (.plugin type name) →
      output ≠ [] → (".." : Text) ∉ Text.splitSlash output →
      (extract c id output).perform d = (.ok outcome, final) →
      (∀ front sub, ¬NestedType c.tree dir file front sub) →
      ∃ copied content, Disk.Extends d copied
        ∧ d.read (Path.join c.root file) = .ok content
        ∧ copied.read (Path.join output (inner dir file)) = .ok content
        ∧ (rewriteCopies c dir output (componentFiles c.tree d c.root dir)).perform copied
          = (.ok outcome, final) := by
  -- the segments of the directory, and those below it
  obtain ⟨below, hbelow⟩ := hbelow
  rw [← List.append_cons] at hbelow
  subst hbelow
  have hsplit := Text.splitSlash_append_slash dir below
  obtain ⟨hparts, hnames⟩ := List.forall_mem_append.1 (hsplit ▸ hplain.isName)
  have hne := Text.splitSlash_ne_nil dir
  have hne' := Text.splitSlash_ne_nil below
  have htext : dir ++ '/' :: below
      = Text.joinSlash (Text.splitSlash dir ++ Text.splitSlash below) := by
    rw [← hsplit, Text.joinSlash_splitSlash]
  have hmem : dir ++ '/' :: below ∈ componentFiles c.tree d c.root dir
      ↔ ∀ front sub, ¬NestedType c.tree dir (dir ++ '/' :: below) front sub := by
    have hiff := mem_componentFiles_iff_not_nested htree.cut hdisk hparts hne hnames hne'
      (htext ▸ hfile)
    rwa [← htext, Text.joinSlash_splitSlash] at hiff
  refine ⟨hmem, ?_, ?_⟩
  · intro front sub segment rest hnested hsegment hvalid hunknown
    rw [fileOwner_in_typeDir htree.cut hplain hnested.marked hsegment hvalid hunknown] at howner
    cases howner
    exact ⟨rfl, rfl⟩
  · intro id output outcome final hid hnamed hup hextract hfree
    obtain ⟨content, hread⟩ := Disk.exists_read_of_isFile hfile
    rw [← Text.joinSlash_splitSlash dir] at hdir
    obtain ⟨copied, hgrow, hcopied, hrewrite⟩ :=
      copied_of_extract htree.cut hdisk hparts hne hdir hid hnamed hup hextract
    rw [Text.joinSlash_splitSlash] at hcopied hrewrite
    have hinner := inner_joinSlash hne hnames hne'
    rw [← htext, Text.joinSlash_splitSlash] at hinner
    refine ⟨copied, content, hgrow, hread, ?_, hrewrite⟩
    rw [hinner]
    exact hcopied _ hnames hne' (htext ▸ hmem.2 hfree) content (htext ▸ hread)

/-- A module with a type of its own, and a stray file in the directory of that type. -/
def codeDisk : Disk where
  entries :=
    [(["code"], .directory), (["code", "mod"], .directory), (["code", "mod", "assign"], .directory),
      (["code", "mod", "assign", "notes.txt"], .file [65]),
      (["code", "mod", "assign", "feedback"], .directory),
      (["code", "mod", "assign", "feedback", "readme.txt"], .file [66])]
  here := []
  temporarySuffix := []

/-- A codebase with that tree. -/
def code : Codebase where
  root := "code"
  tree := withSubtypes
  settings := .default
  programs := fun _ _ _ => .error .noEntry

theorem owned_file_extracted_iff_notes :
    (code.tree.fileOwner "mod/assign/notes.txt").component = .plugin "mod" "assign"
    ∧ ("mod/assign/notes.txt" : Text) ∈ componentFiles code.tree codeDisk code.root "mod/assign"
    ∧ ∃ copied outcome, copied.read "out/notes.txt" = .ok [65]
      ∧ (rewriteCopies code "mod/assign" "out" ["mod/assign/notes.txt"]).perform copied
        = (.ok outcome, ((extract code "mod_assign" "out").perform codeDisk).2) := by
  have htree : code.tree.Built := .ofManifests _ _
  have hdisk : codeDisk.Sound := by decide +kernel
  have hplain : PlainPath "mod/assign/notes.txt" := by decide
  have howner : (code.tree.fileOwner "mod/assign/notes.txt").component
      = .plugin "mod" "assign" := by decide +kernel
  have hfiles : componentFiles code.tree codeDisk code.root "mod/assign"
      = [("mod/assign/notes.txt" : Text)] := by decide +kernel
  have hok : ((extract code "mod_assign" "out").perform codeDisk).1.map Outcome.filesCopied
      = .ok 1 := by decide +kernel
  obtain ⟨hmem, -, hcopy⟩ := owned_file_extracted_iff htree hdisk
    (by decide +kernel : code.tree.componentDir? (.plugin "mod" "assign")
      = some ("mod/assign" : Text))
    (by decide) hplain (by decide +kernel) howner
  have hlisted : ("mod/assign/notes.txt" : Text)
      ∈ componentFiles code.tree codeDisk code.root "mod/assign" := by
    rw [hfiles]
    exact List.mem_singleton.2 rfl
  rcases hrun : (extract code "mod_assign" "out").perform codeDisk with ⟨⟨fault⟩ | ⟨outcome⟩, final⟩
  · rw [hrun] at hok
    cases hok
  · obtain ⟨copied, content, -, hread, hcopied, hrewrite⟩ :=
      hcopy "mod_assign" "out" outcome final (by decide) (by decide) (by decide) hrun
        (hmem.1 hlisted)
    have hcontent : codeDisk.read "code/mod/assign/notes.txt" = .ok [65] := by decide +kernel
    obtain rfl := Except.ok.inj (hread.symm.trans hcontent)
    rw [hfiles] at hrewrite
    exact ⟨howner, hlisted, copied, outcome, hcopied, hrewrite⟩

/-- Local plugins in the topmost directory. -/
def topmostType : ComponentTree :=
  .ofManifests ⟨[("local", "")], []⟩ []

def topmostDisk : Disk where
  entries :=
    [(["code"], .directory), (["code", "tidy"], .directory),
      (["code", "tidy", "notes.txt"], .file [65])]
  here := []
  temporarySuffix := []

/-- The stray file belongs to the module and is left. So are the files of a plugin
whose type is at the top, for the directory of the plugin is not found below the
root. And where the new directory is reached by a step up from one that was
missing, it may be the module's own: then its files are copied to themselves. -/
theorem owned_file_left :
    (code.tree.fileOwner "mod/assign/feedback/readme.txt").component = .plugin "mod" "assign"
    ∧ codeDisk.isFile "code/mod/assign/feedback/readme.txt" = true
    ∧ ("mod/assign/feedback/readme.txt" : Text)
      ∉ componentFiles code.tree codeDisk code.root "mod/assign"
    ∧ (topmostType.fileOwner "tidy/notes.txt").component = .plugin "local" "tidy"
    ∧ topmostType.componentDir? (.plugin "local" "tidy") = some ("/tidy" : Text)
    ∧ topmostDisk.isFile "code/tidy/notes.txt" = true
    ∧ componentFiles topmostType topmostDisk "code" "/tidy" = []
    ∧ codeDisk.read "code/mod/assign/notes.txt" = .ok [65]
    ∧ ((extract code "mod_assign" "new/../code/mod/assign").perform codeDisk).2.read
      "code/mod/assign/notes.txt" = .ok [] := by
  refine ⟨by decide +kernel, by decide +kernel, by decide +kernel, by decide +kernel,
    by decide +kernel, by decide +kernel, by decide +kernel, by decide +kernel, ?_⟩
  decide +kernel

end Extract

end ComponentPaths
