/-
Path names that continue other path names.

A path name can be taken apart in two ways: into the parts that count, by which
a file gets its name below a root, and into the names that are followed on the
disk. Names joined to a path name are added at the end of both
(`parts_join`, `locate_append_slash`), so what is found below a directory has
the name it would have had if it had been asked for by that name
(`relativeName?_join`, `pathOf_join`).

Without a step up, a path name says where it leads before anything is known of
the disk (`follow_eq_of_noUp`).
-/
import ComponentPaths.Discovery
import ComponentPaths.Proofs.Decision.Shortest
import ComponentPaths.Proofs.Disk.Replacing

namespace ComponentPaths

open Relative (IsName)

variable {names more : List Text} {name root path t u : Text}

-- =================================================================== names

/-- Whether a path is absolute shows at its start. -/
theorem Path.isAbsolute_append (hne : t ≠ []) (u : Text) :
    isAbsolute (t ++ u) = isAbsolute t := by
  cases t with
  | nil => exact absurd rfl hne
  | cons c t => rfl

theorem Relative.IsName.not_void (h : IsName name) : Path.isVoid name = false := by
  have hempty : name.isEmpty = false := by simpa using h.ne_nil
  have hdot : (name == ("." : Text)) = false := by simpa only [beq_eq_false_iff_ne] using h.ne_dot
  rw [Path.isVoid, hempty, hdot]
  rfl

/-- Names are read back from the path name they join to. -/
theorem Text.splitSlash_names (h : ∀ s ∈ names, IsName s) (hne : names ≠ []) :
    splitSlash (joinSlash names) = names :=
  List.splitOn_intercalate '/' (fun s hs => (h s hs).noSlash) hne

/-- Names can be read off the path they join to. -/
theorem Text.joinSlash_names_inj (h : ∀ s ∈ names, IsName s) (hne : names ≠ [])
    (hmore : ∀ s ∈ more, IsName s) (hne' : more ≠ []) (heq : joinSlash names = joinSlash more) :
    names = more := by
  rw [← splitSlash_names h hne, heq, splitSlash_names hmore hne']

/-- No name is skipped. -/
theorem filter_void_names (h : ∀ s ∈ names, IsName s) :
    names.filter (fun s => !Path.isVoid s) = names := by
  rw [List.filter_eq_self]
  intro s hs
  rw [(h s hs).not_void]
  rfl

namespace Path

/-- Joined names do not start with a separator. -/
theorem isAbsolute_names (h : ∀ s ∈ names, IsName s) :
    isAbsolute (Text.joinSlash names) = false := by
  by_cases hne : names = []
  · subst hne
    rfl
  cases htext : Text.joinSlash names with
  | nil => rfl
  | cons c rest =>
      by_cases hc : c = '/'
      · -- a separator in front would have an empty name before it
        subst hc
        have hsplit := Text.splitSlash_names h hne
        have hempty : ([] : Text) ∈ names := by
          rw [← hsplit, htext, Text.splitSlash_cons_slash]
          exact List.mem_cons_self
        exact absurd rfl (h [] hempty).ne_nil
      · simpa [isAbsolute] using hc

/-- Joined names do not end with a separator. -/
theorem getLast?_names (h : ∀ s ∈ names, IsName s) :
    (Text.joinSlash names).getLast? ≠ some '/' := by
  by_cases hne : names = []
  · subst hne
    simp
  intro hlast
  obtain ⟨front, hfront⟩ := List.getLast?_eq_some_iff.1 hlast
  have hsplit := Text.splitSlash_names h hne
  have hempty : ([] : Text) ∈ names := by
    rw [← hsplit, hfront, Text.splitSlash_append_slash]
    exact List.mem_append_right _ (by simp [Text.splitSlash])
  exact absurd rfl (h [] hempty).ne_nil

theorem joinSlash_names_ne_nil (h : ∀ s ∈ names, IsName s) (hne : names ≠ []) :
    Text.joinSlash names ≠ [] := by
  intro hnil
  have hsplit := Text.splitSlash_names h hne
  rw [hnil] at hsplit
  exact absurd rfl (h [] (by rw [← hsplit]; simp [Text.splitSlash])).ne_nil

-- ================================================================= joining

/-- What comes after a relative path name stays after it. -/
theorem join_append (root : Text) (hne : t ≠ []) (u : Text) :
    join root (t ++ u) = join root t ++ u := by
  unfold join
  rw [isAbsolute_append hne]
  split
  · rfl
  · split
    · rw [List.append_assoc]
    · rw [List.append_assoc, List.cons_append]

/-- A joined path ends with what was joined to it. -/
theorem exists_join_eq (root t : Text) : ∃ front, join root t = front ++ t := by
  unfold join
  split
  · exact ⟨[], rfl⟩
  · split
    · exact ⟨root, rfl⟩
    · exact ⟨root ++ ['/'], by simp⟩

theorem join_ne_nil (root : Text) (hne : t ≠ []) : join root t ≠ [] := by
  obtain ⟨front, hfront⟩ := exists_join_eq root t
  rw [hfront]
  simp [hne]

/-- One name more. -/
theorem join_join (root : Text) (h : ∀ s ∈ names, IsName s) (hne : names ≠ [])
    (hname : IsName name) :
    join (join root (Text.joinSlash names)) name
      = join root (Text.joinSlash (names ++ [name])) := by
  have htext := joinSlash_names_ne_nil h hne
  have hlast : (join root (Text.joinSlash names)).getLast? ≠ some '/' := by
    obtain ⟨front, hfront⟩ := exists_join_eq root (Text.joinSlash names)
    rw [hfront, List.getLast?_append, List.getLast?_eq_some_getLast htext, Option.some_or,
      ← List.getLast?_eq_some_getLast htext]
    exact getLast?_names h
  have habs : isAbsolute name = false := by
    have hone : ∀ s ∈ [name], IsName s := by simpa using hname
    have hrelative := isAbsolute_names hone
    rwa [Text.joinSlash_singleton] at hrelative
  rw [Text.joinSlash_append hne (List.cons_ne_nil _ _), Text.joinSlash_singleton,
    join_append root htext]
  rw [join.eq_def (join root _), habs, Bool.false_or,
    if_neg (by simpa using join_ne_nil root htext), if_neg (by simpa using hlast)]

/-- The names that lead to a file from a directory, joined one by one, are joined
as a whole. -/
theorem pathOf_join (root : Text) (h : ∀ s ∈ names, IsName s) (hne : names ≠ [])
    (hmore : ∀ s ∈ more, IsName s) :
    Discovery.pathOf (join root (Text.joinSlash names)) more
      = join root (Text.joinSlash (names ++ more)) := by
  induction more generalizing names with
  | nil => rw [List.append_nil, Discovery.pathOf, List.foldl_nil]
  | cons name more ih =>
      obtain ⟨hname, hmore⟩ := List.forall_mem_cons.1 hmore
      have hnext : ∀ s ∈ names ++ [name], IsName s :=
        List.forall_mem_append.2 ⟨h, by simpa using hname⟩
      rw [Discovery.pathOf, List.foldl_cons, join_join root h hne hname]
      have hrest := ih hnext (by simp) hmore
      rw [List.append_assoc, List.singleton_append] at hrest
      exact hrest

-- =================================================================== parts

/-- The parts of a joined path are those of both. -/
theorem parts_append_slash (root t : Text) :
    parts (root ++ '/' :: t)
      = (if root = [] then [("/" : Text)] else parts root)
        ++ (Text.splitSlash t).filter fun s => !isVoid s := by
  by_cases hroot : root = []
  · subst hroot
    rw [List.nil_append, if_pos rfl, parts, Text.splitSlash_cons_slash]
    rfl
  · rw [if_neg hroot]
    unfold parts
    rw [Text.splitSlash_append_slash, isAbsolute_append hroot]
    cases hsplit : Text.splitSlash root with
    | nil => exact absurd hsplit (Text.splitSlash_ne_nil root)
    | cons first rest =>
        dsimp only [List.cons_append]
        rw [List.filter_append, List.append_assoc]

/-- The parts of a path of names are the names. -/
theorem parts_names (h : ∀ s ∈ names, IsName s) : parts (Text.joinSlash names) = names := by
  cases names with
  | nil => decide
  | cons first rest =>
      obtain ⟨hfirst, hrest⟩ := List.forall_mem_cons.1 h
      unfold parts
      rw [Text.splitSlash_names h (List.cons_ne_nil _ _), isAbsolute_names h]
      dsimp only
      rw [if_neg Bool.false_ne_true, if_neg (by simpa using hfirst.ne_nil),
        filter_void_names hrest, List.singleton_append]

/-- Names joined to a root are added to its parts. -/
theorem parts_join (root : Text) (h : ∀ s ∈ names, IsName s) (hne : names ≠ []) :
    parts (join root (Text.joinSlash names)) = parts root ++ names := by
  unfold join
  rw [isAbsolute_names h, Bool.false_or]
  split
  · next hroot =>
    rw [List.isEmpty_iff.1 hroot, parts_names h]
    rfl
  next hroot =>
  have hkept : (Text.splitSlash (Text.joinSlash names)).filter (fun s => !isVoid s) = names := by
    rw [Text.splitSlash_names h hne, filter_void_names h]
  split
  · next hlast =>
    obtain ⟨front, rfl⟩ := List.getLast?_eq_some_iff.1 (beq_iff_eq.1 hlast)
    rw [List.append_assoc, List.singleton_append, parts_append_slash, parts_append_slash, hkept]
    simp [Text.splitSlash, isVoid]
  · rw [parts_append_slash, if_neg (by simpa using hroot), hkept]

/-- What is left after the first parts is the rest of them. -/
theorem dropParts?_eq_some_iff {start all rest : List Text} :
    dropParts? start all = some rest ↔ all = start ++ rest := by
  fun_induction dropParts? start all with
  | case1 all => simp
  | case2 s start => simp
  | case3 s start all ih => simp [ih]
  | case4 s start a all hne =>
      constructor
      · intro h
        cases h
      · intro h
        exact absurd (List.cons.inj h).1.symm hne

/-- Below a root, a file has the name it is joined by. -/
theorem relativeName?_join (root : Text) (h : ∀ s ∈ names, IsName s) (hne : names ≠ []) :
    relativeName? root (join root (Text.joinSlash names)) = some (Text.joinSlash names) := by
  unfold relativeName?
  rw [dropParts?_eq_some_iff.2 (parts_join root h hne)]
  cases names with
  | nil => exact absurd rfl hne
  | cons name rest => rfl

end Path

-- =============================================================== following

namespace Disk

variable {d : Disk} {place final : Place}

/-- Without a step up, following adds the names that count. -/
theorem follow_eq_of_noUp (hup : (".." : Text) ∉ names)
    (h : d.follow place names = .ok final) :
    final = place ++ names.filter fun s => !Path.isVoid s := by
  induction names generalizing place with
  | nil =>
      cases h
      simp
  | cons name rest ih =>
      obtain ⟨hname, hrest⟩ := not_or.1 (mt List.mem_cons.2 hup)
      rw [follow_of_directory (directory_of_follow h)] at h
      split at h
      · next hvoid =>
        rw [List.filter_cons_of_neg (by simp [hvoid])]
        exact ih hrest h
      · next hvoid =>
        rw [if_neg (Ne.symm hname)] at h
        split at h
        · cases h
        · rw [List.filter_cons_of_pos (by simpa using hvoid), ih hrest h, List.append_assoc,
            List.singleton_append]

/-- Names that can be followed lead straight down. -/
theorem follow_names_eq (hnames : ∀ s ∈ names, IsName s)
    (h : d.follow place names = .ok final) : final = place ++ names := by
  have hup : (".." : Text) ∉ names := fun hmem => (hnames _ hmem).ne_up rfl
  rw [follow_eq_of_noUp hup h, filter_void_names hnames]

/-- A beginning of a path name can be followed if the whole can. -/
theorem checkName_of_append (hne : path ≠ []) (h : checkName (path ++ u) = .ok ()) :
    checkName path = .ok () := by
  unfold checkName at h ⊢
  split at h
  · cases h
  next hnul =>
  split at h
  · cases h
  split at h
  · cases h
  next hlong =>
  have hpath : path.contains '\x00' = false := by
    simp only [List.contains_eq_mem, List.mem_append, decide_eq_true_eq, not_or] at hnul
    simpa using hnul.1
  have hshort : ¬pathLimit < (Bytes.ofText path).length := by
    unfold Bytes.ofText at hlong ⊢
    rw [List.flatMap_append, List.length_append] at hlong
    omega
  rw [hpath, if_neg Bool.false_ne_true, if_neg (by simpa using hne), if_neg hshort]

/-- A longer path starts at the same place. -/
theorem start_append (hne : path ≠ []) : d.start (path ++ u) = d.start path := by
  unfold start
  rw [Path.isAbsolute_append hne]

/-- A path name that goes on leads through the directory of its beginning. -/
theorem locate_append_slash (hne : path ≠ []) (h : d.locate (path ++ '/' :: u) = .ok final) :
    ∃ base, d.locate path = .ok base ∧ d.entry? base = some .directory
      ∧ d.follow base (Text.splitSlash u) = .ok final := by
  obtain ⟨hcheck, hfollow⟩ := locate_eq_ok_iff.1 h
  rw [start_append hne, Text.splitSlash_append_slash] at hfollow
  obtain ⟨base, hbase, hrest⟩ := follow_append_eq_ok_iff.1 hfollow
  refine ⟨base, locate_eq_ok_iff.2 ⟨checkName_of_append hne hcheck, hbase⟩, ?_, hrest⟩
  cases hsplit : Text.splitSlash u with
  | nil => exact absurd hsplit (Text.splitSlash_ne_nil u)
  | cons name rest =>
      rw [hsplit] at hrest
      exact directory_of_follow hrest

/-- The places of a directory and of a file in it. -/
theorem locate_join_append (root : Text) (hnames : ∀ s ∈ names, IsName s) (hne : names ≠ [])
    (hmore : ∀ s ∈ more, IsName s) (hmore' : more ≠ [])
    (h : d.locate (Path.join root (Text.joinSlash (names ++ more))) = .ok final) :
    ∃ base, d.locate (Path.join root (Text.joinSlash names)) = .ok base
      ∧ d.entry? base = some .directory ∧ final = base ++ more := by
  have htext := Path.joinSlash_names_ne_nil hnames hne
  rw [Text.joinSlash_append hne hmore', Path.join_append root htext] at h
  obtain ⟨base, hbase, hdir, hfollow⟩ :=
    locate_append_slash (Path.join_ne_nil root htext) h
  rw [Text.splitSlash_names hmore hmore'] at hfollow
  exact ⟨base, hbase, hdir, follow_names_eq hmore hfollow⟩

-- ================================================================= listing

/-- The places on the way to a place are its fronts. -/
theorem mem_onTheWay {way : Place} : place ∈ Place.onTheWay way ↔ place <+: way := by
  induction way generalizing place with
  | nil => simp [Place.onTheWay]
  | cons name rest ih =>
      rw [Place.onTheWay, List.mem_cons, List.mem_map, List.prefix_cons_iff]
      simp only [ih]
      apply or_congr_right
      constructor
      · rintro ⟨t, ht, rfl⟩
        exact ⟨t, rfl, ht⟩
      · rintro ⟨t, rfl, ht⟩
        exact ⟨t, ht, rfl⟩

/-- The beginnings of the directory of a place are those of the place but itself. -/
theorem prefix_dropLast_iff {way : Place} (hne : way ≠ []) :
    place <+: way.dropLast ↔ ∃ rest, rest ≠ [] ∧ way = place ++ rest := by
  constructor
  · rintro ⟨rest, hrest⟩
    refine ⟨rest ++ [way.getLast hne], by simp, ?_⟩
    rw [← List.append_assoc, hrest, List.dropLast_concat_getLast]
  · rintro ⟨rest, hrest, rfl⟩
    rw [List.dropLast_append_of_ne_nil hrest]
    exact List.prefix_append _ _

/-- What is below a place is an entry with a longer way. -/
theorem mem_below {entry : Entry} :
    (names, entry) ∈ d.below place ↔ names ≠ [] ∧ (place ++ names, entry) ∈ d.entries := by
  unfold below
  rw [List.mem_filterMap]
  constructor
  · rintro ⟨⟨other, found⟩, hmem, h⟩
    dsimp only at h
    split at h
    · cases h
    · next rest hne hrest =>
      cases h
      rw [Path.dropParts?_eq_some_iff.1 hrest] at hmem
      exact ⟨hne, hmem⟩
    · cases h
  · rintro ⟨hne, hmem⟩
    refine ⟨_, hmem, ?_⟩
    dsimp only
    rw [Path.dropParts?_eq_some_iff.2 rfl]
    cases names with
    | nil => exact absurd rfl hne
    | cons name rest => rfl

/-- The files below a directory, but for those that something to skip is on the
way to. -/
theorem mem_filesBelow {skip : Place → Bool} (hplace : d.locate path = .ok place)
    (hdir : d.entry? place = some .directory) :
    names ∈ d.filesBelow path skip
      ↔ names ≠ [] ∧ (∃ content, (place ++ names, .file content) ∈ d.entries)
        ∧ ∀ way, way <+: names.dropLast → skip way = false := by
  have hstat : d.stat path = .ok .directory := by
    unfold stat
    rw [hplace]
    dsimp only
    rw [hdir]
  have hskip : (Place.onTheWay names.dropLast).any skip = false
      ↔ ∀ way, way <+: names.dropLast → skip way = false := by
    simp only [List.any_eq_false, mem_onTheWay, Bool.not_eq_true]
  unfold filesBelow
  rw [hplace, hstat]
  dsimp only
  rw [List.mem_filterMap, ← hskip]
  constructor
  · rintro ⟨⟨names', entry⟩, hmem, h⟩
    obtain ⟨hne, hmem⟩ := mem_below.1 hmem
    cases entry with
    | directory => cases h
    | file content =>
      dsimp only at h
      split at h
      · cases h
      · next hskip =>
        cases h
        exact ⟨hne, ⟨content, hmem⟩, by simpa using hskip⟩
  · rintro ⟨hne, ⟨content, hmem⟩, hskip⟩
    refine ⟨(names, .file content), mem_below.2 ⟨hne, hmem⟩, ?_⟩
    dsimp only
    rw [if_neg (by simp [hskip])]

end Disk

end ComponentPaths
