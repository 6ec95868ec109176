/-
Replacing a file changes one entry of the disk and nothing else.

The entry is the one the path name leads to, and no directory
(`replace_eq_ok`). So all directories stay what they are. A path name is
followed through directories only, so every path name that led somewhere
before leads to the same place afterwards, and no other one does
(`place?_put_file`): whether a last name is there, and what it is, is
never asked on the way.
-/
import ComponentPaths.Disk.Basic

namespace ComponentPaths

/-- Nothing is dropped from a text that does not end with a separator. -/
theorem Text.dropEndWhile_slash_eq_self {t : Text} (h : t.getLast? ≠ some '/') :
    dropEndWhile (· == '/') t = t := by
  unfold dropEndWhile
  rw [← List.head?_reverse] at h
  cases hrev : t.reverse with
  | nil => simpa using hrev
  | cons c rest =>
      rw [hrev] at h
      have hc : (c == '/') = false := by simpa using h
      rw [List.dropWhile_cons, hc, ← hrev]
      simp

namespace Disk

variable {d d' : Disk}

-- ================================================================= entries

/-- Entries with the one at a place replaced. -/
def renew (place : Place) (entry : Entry) (entries : List (Place × Entry)) :
    List (Place × Entry) :=
  entries.map fun old => if old.1 == place then (place, entry) else old

/-- A new entry leaves all others as they are. -/
theorem lookup_renew_of_ne {place other : Place} (hne : other ≠ place) (entry : Entry)
    (entries : List (Place × Entry)) :
    (renew place entry entries).lookup other = entries.lookup other := by
  induction entries with
  | nil => rfl
  | cons old rest ih =>
      obtain ⟨p, e⟩ := old
      show List.lookup other ((if p == place then (place, entry) else (p, e))
        :: renew place entry rest) = _
      by_cases hp : p = place
      · have hother : (other == place) = false := by simpa using hne
        rw [hp, if_pos (beq_self_eq_true place), List.lookup_cons, List.lookup_cons, hother, ih]
      · rw [if_neg (by simpa using hp), List.lookup_cons, List.lookup_cons, ih]

/-- The entry itself is the new one. -/
theorem lookup_renew_self {place : Place} (entry : Entry) {entries : List (Place × Entry)}
    (hany : entries.any (·.1 == place) = true) :
    (renew place entry entries).lookup place = some entry := by
  induction entries with
  | nil => cases hany
  | cons old rest ih =>
      obtain ⟨p, e⟩ := old
      show List.lookup place ((if p == place then (place, entry) else (p, e))
        :: renew place entry rest) = _
      by_cases hp : p = place
      · rw [if_pos (by simpa using hp), List.lookup_cons, beq_self_eq_true]
      · have hplace : (place == p) = false := by simpa using Ne.symm hp
        rw [List.any_cons, show (p == place) = false by simpa using hp, Bool.false_or] at hany
        rw [if_neg (by simpa using hp), List.lookup_cons, hplace]
        exact ih hany

theorem lookup_eq_none_of_any {place : Place} {entries : List (Place × Entry)}
    (hany : ¬entries.any (·.1 == place) = true) : entries.lookup place = none := by
  rw [List.lookup_eq_none_iff]
  intro old hold
  rw [bne_iff_ne]
  intro heq
  exact hany (List.any_eq_true.2 ⟨old, hold, beq_iff_eq.2 heq.symm⟩)

/-- One place has the new entry, and all the others keep theirs. -/
theorem entry_put {place : Place} (hplace : place ≠ []) (entry : Entry) (other : Place) :
    Disk.entry? (d.put place entry) other
      = if other = place then some entry else d.entry? other := by
  by_cases htop : other = []
  · subst htop
    rw [if_neg (Ne.symm hplace)]
    rfl
  have hlookup : ∀ disk : Disk, disk.entry? other = disk.entries.lookup other := by
    intro disk
    unfold entry?
    rw [if_neg (by simpa using htop)]
  rw [hlookup, hlookup]
  unfold put
  by_cases hany : d.entries.any (·.1 == place) = true
  · rw [if_pos hany]
    by_cases hother : other = place
    · subst hother
      rw [if_pos rfl]
      exact lookup_renew_self entry hany
    · rw [if_neg hother]
      exact lookup_renew_of_ne hother entry d.entries
  · rw [if_neg hany, List.lookup_append]
    by_cases hother : other = place
    · -- a new place: nothing before it answers
      subst hother
      rw [if_pos rfl, lookup_eq_none_of_any hany, List.lookup_cons, beq_self_eq_true]
      rfl
    · have hne : (other == place) = false := by simpa using hother
      rw [if_neg hother, List.lookup_cons, hne]
      simp

theorem here_put (place : Place) (entry : Entry) : (d.put place entry).here = d.here := by
  unfold put
  split <;> rfl

-- =============================================================== following

/-- Only through directories can a path go on. -/
theorem directory_of_follow {place final : Place} {name : Text} {rest : List Text}
    (h : d.follow place (name :: rest) = .ok final) : d.entry? place = some .directory := by
  rw [follow] at h
  split at h
  · cases h
  · cases h
  · assumption

/-- From a directory, each name is one step, or none, or an error. -/
theorem follow_of_directory {place : Place} (h : d.entry? place = some .directory) (name : Text)
    (rest : List Text) :
    d.follow place (name :: rest)
      = if Path.isVoid name then d.follow place rest
        else if name = ".." then d.follow place.dropLast rest
        else if nameLimit < (Bytes.ofText name).length then .error .nameTooLong
        else d.follow (place ++ [name]) rest := by
  rw [follow, h]

/-- A path can be followed in two parts. -/
theorem follow_append_eq_ok_iff {place final : Place} {names more : List Text} :
    d.follow place (names ++ more) = .ok final
      ↔ ∃ middle, d.follow place names = .ok middle ∧ d.follow middle more = .ok final := by
  induction names generalizing place with
  | nil => simp [follow]
  | cons name rest ih =>
      rw [List.cons_append]
      by_cases hdir : d.entry? place = some .directory
      · rw [follow_of_directory hdir, follow_of_directory hdir]
        split
        · exact ih
        · split
          · exact ih
          · split
            · simp
            · exact ih
      · constructor
        · intro h
          exact absurd (directory_of_follow h) hdir
        · rintro ⟨middle, h, -⟩
          exact absurd (directory_of_follow h) hdir

/-- An empty last name asks for a directory. -/
theorem follow_void_eq_ok_iff {place final : Place} :
    d.follow place [[]] = .ok final ↔ d.entry? place = some .directory ∧ final = place := by
  constructor
  · intro h
    have hdir := directory_of_follow h
    rw [follow_of_directory hdir, if_pos (by decide), follow] at h
    exact ⟨hdir, (Except.ok.inj h).symm⟩
  · rintro ⟨hdir, rfl⟩
    rw [follow_of_directory hdir, if_pos (by decide), follow]

/-- Following depends on the directories only. -/
theorem follow_eq_ok_iff_of_directories
    (h : ∀ place, Disk.entry? d' place = some .directory ↔ d.entry? place = some .directory)
    {place final : Place} {names : List Text} :
    d'.follow place names = .ok final ↔ d.follow place names = .ok final := by
  induction names generalizing place with
  | nil => simp [follow]
  | cons name rest ih =>
      by_cases hdir : d.entry? place = some .directory
      · rw [follow_of_directory hdir, follow_of_directory ((h place).2 hdir)]
        split
        · exact ih
        · split
          · exact ih
          · split
            · simp
            · exact ih
      · constructor
        · intro hfollow
          exact absurd ((h place).1 (directory_of_follow hfollow)) hdir
        · intro hfollow
          exact absurd (directory_of_follow hfollow) hdir

/-- A path name leads where its names do, if they are not too long. -/
theorem locate_eq_ok_iff {path : Text} {place : Place} :
    d.locate path = .ok place
      ↔ checkName path = .ok () ∧ d.follow (d.start path) (Text.splitSlash path) = .ok place := by
  unfold locate
  cases checkName path with
  | error error => simp
  | ok u => simp

/-- A path name that does not end with a separator leads to its last name, in the
directory that holds it. -/
theorem locate_of_locateLast {path name : Text} {above place : Place}
    (hlast : path.getLast? ≠ some '/') (habove : d.locateLast path = .ok (above, name))
    (hplace : d.locateIn above name = .ok place) : d.locate path = .ok place := by
  have htrim := Text.dropEndWhile_slash_eq_self hlast
  have hnames : Text.splitSlash path ≠ [] := List.splitOn_ne_nil '/' path
  unfold locateLast at habove
  rw [htrim] at habove
  split at habove
  · cases habove
  · rename_i hcheck
    dsimp only at habove
    split at habove
    · cases habove
    · rename_i dir hdir
      cases habove
      obtain ⟨middle, hmiddle, hvoid⟩ := follow_append_eq_ok_iff.1 hdir
      obtain ⟨-, rfl⟩ := follow_void_eq_ok_iff.1 hvoid
      have hsplit : Text.splitSlash path
          = (Text.splitSlash path).dropLast ++ [(Text.splitSlash path).getLastD []] := by
        rw [List.getLastD_eq_getLast?, List.getLast?_eq_some_getLast hnames, Option.getD_some,
          List.dropLast_concat_getLast]
      rw [locate_eq_ok_iff, hsplit]
      exact ⟨hcheck, follow_append_eq_ok_iff.2 ⟨_, hmiddle, hplace⟩⟩

-- =============================================================== replacing

/-- What replacing a file does, if it does anything. -/
theorem replace_eq_ok {path : Text} {content : Bytes}
    (h : d.replace path content = .ok d') :
    ∃ place, d.locate path = .ok place ∧ d.entry? place ≠ some .directory
      ∧ d' = d.put place (.file content) := by
  have hmove : d.moveTo path content = .ok d' := by
    unfold replace at h
    dsimp only at h
    split at h
    · cases h
    · split at h
      · cases h
      · rename_i hmoved
        cases h
        exact hmoved
  unfold moveTo at hmove
  split at hmove
  · cases hmove
  split at hmove
  · cases hmove
  rename_i above name habove
  split at hmove
  · cases hmove
  split at hmove
  · cases hmove
  rename_i place hplace
  split at hmove
  · cases hmove
  rename_i hlast
  split at hmove
  · cases hmove
  rename_i hentry
  cases hmove
  exact ⟨place, locate_of_locateLast (by simpa using hlast) habove hplace,
    fun hdir => hentry hdir, rfl⟩

/-- Where there is no directory, a file makes none and takes none away. -/
theorem directory_put_file_iff {place : Place} (hentry : d.entry? place ≠ some .directory)
    (content : Bytes) (other : Place) :
    Disk.entry? (d.put place (.file content)) other = some .directory
      ↔ d.entry? other = some .directory := by
  have hplace : place ≠ [] := by
    rintro rfl
    exact hentry rfl
  rw [entry_put hplace]
  split
  · rename_i hother
    subst hother
    constructor
    · intro h
      cases h
    · intro h
      exact absurd h hentry
  · exact Iff.rfl

/-- The place of a path name, if it leads to one. -/
def place? (d : Disk) (path : Text) : Option Place :=
  (d.locate path).toOption

theorem place?_eq_some_iff {path : Text} {place : Place} :
    d.place? path = some place ↔ d.locate path = .ok place := by
  unfold place?
  cases d.locate path with
  | error error => simp [Except.toOption]
  | ok found => simp [Except.toOption]

/-- Every path name leads where it led before. -/
theorem place?_put_file {place : Place} (hentry : d.entry? place ≠ some .directory)
    (content : Bytes) : (d.put place (.file content)).place? = d.place? := by
  funext path
  refine Option.ext fun other => ?_
  rw [place?_eq_some_iff, place?_eq_some_iff, locate_eq_ok_iff, locate_eq_ok_iff,
    follow_eq_ok_iff_of_directories (directory_put_file_iff hentry content)]
  unfold start
  rw [here_put]

end Disk

end ComponentPaths
