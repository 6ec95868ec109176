/-
Which manifests are accepted, and what they hold.

A manifest is described twice: by the findings on its value, and by the reader
that makes a record of the value. The reader makes something of just the values
that a shape accepts (`Reads`), so on objects there are no findings if and only if
the reader succeeds (`primaryFindings_eq_nil_iff`), and after the check it never
fails. By itself the reader would also take an array for a record, and that is a
finding.

What a text has to look like is said of the document that is written. Of several
members with one key only the last one counts, at the top and inside the maps
(`HoldsUnder`). The maps of a manifest hold just these members, each key once
(`manifest_accepted_iff`).
-/
import ComponentPaths.Manifest
import ComponentPaths.Proofs.Json.Members
import ComponentPaths.Proofs.Tree.Markers
import Mathlib.Data.List.Basic

namespace ComponentPaths

open Json (Document)
open Json.Document (Denotes)

-- ================================================================ documents

namespace Json

namespace Document

/-- A string, as a document. -/
def ofString (t : Text) : Document :=
  .string (some t)

/-- A string or null, as a document. -/
def ofOptional : Option Text → Document
  | some t => .string (some t)
  | none => .null

/-- An object whose values are all of one kind. Of several members with one key, the
last one counts. -/
def IsMapOf {α : Type} (written : α → Document) (document : Document) : Prop :=
  document.isObject = true
  ∧ ∀ key inner, document.last? key = some inner → ∃ x, inner = written x

/-- Objects are read as objects. -/
theorem Denotes.isObject_iff {document : Document} {value : Json} (h : document.Denotes value) :
    document.isObject = true ↔ ∃ members, value = .object members := by
  rcases h.cases with ⟨members, written, rfl, rfl, -⟩ | ⟨hdocument, hvalue, -⟩
  · exact iff_of_true rfl ⟨_, rfl⟩
  · rw [hdocument]
    refine iff_of_false Bool.false_ne_true ?_
    rintro ⟨members, rfl⟩
    cases hvalue

/-- A key that is written twice is there once. -/
theorem Denotes.nodup {document : Document} {members : List (Text × Json)}
    (h : document.Denotes (.object members)) : (members.map Prod.fst).Nodup := by
  rcases h.cases with ⟨_, written, -, hvalue, -⟩ | ⟨-, hvalue, -⟩
  · cases hvalue
    exact nodup_settle written
  · cases hvalue

/-- Under a key, what holds of a value that is read is what holds of the document. -/
theorem Denotes.forall_member {document : Document} {value : Json} (h : document.Denotes value)
    {p : Json → Prop} {q : Document → Prop} (hpq : ∀ d v, Denotes d v → (p v ↔ q d)) (key : Text) :
    (∀ inner, value.member? key = some inner → p inner)
      ↔ ∀ inner, document.last? key = some inner → q inner := by
  have hrel := h.member key
  generalize document.last? key = d, value.member? key = v at hrel ⊢
  cases hrel with
  | none => simp
  | some hrel => simpa using hpq _ _ hrel

/-- What is under a key, if anything is, is a map. -/
def HasMap {α : Type} (written : α → Document) (key : Text) (document : Document) : Prop :=
  ∀ inner, document.last? key = some inner → inner.IsMapOf written

/-- A map that holds what is under a key: in ascending order, each key once, with the
value of the last member that has it. -/
def HoldsUnder {α : Type} (key : Text) (written : α → Document) (map : List (Text × α))
    (document : Document) : Prop :=
  (map.Pairwise fun a b => Text.Before a.1 b.1)
  ∧ ∀ name x, (name, x) ∈ map ↔ (document.last? key).bind (last? name) = some (written x)

/-- A text is valid JSON: it spells a document, and the document has a value. -/
def Valid (text : Text) (document : Document) : Prop :=
  Document.ofText? text = some document ∧ (ofDocument? depthLimit document).isSome = true

end Document

theorem ofText?_eq_some_iff {text : Text} {value : Json} :
    ofText? text = some value ↔
      ∃ document, Document.ofText? text = some document
        ∧ ofDocument? depthLimit document = some value := by
  unfold ofText?
  exact Option.bind_eq_some_iff

end Json

namespace Manifest

-- =================================================================== shapes

/-- A reader makes something of the values of a shape, and of no others. What it
makes of a value says how the value is written. -/
structure Reads {α : Type} (shape : Shape) (read? : Json → Option α) (written : α → Document) :
    Prop where
  accepts : ∀ value, shape.accepts value = (read? value).isSome
  denotes : ∀ document value x, Denotes document value →
    (read? value = some x ↔ document = written x)

/-- The shape of a string is what can be read as one, -/
theorem reads_string : Reads .string Json.asString? Document.ofString := by
  refine ⟨fun value => by cases value <;> rfl, fun document value x h => ?_⟩
  have hread : Json.asString? value = some x ↔ value = .string x := by
    cases value <;> simp [Json.asString?]
  rw [hread, h.string_iff]
  rfl

/-- and so is that of a string that may be missing. -/
theorem reads_stringOrNull : Reads .stringOrNull asOptionalDir? Document.ofOptional := by
  refine ⟨fun value => by cases value <;> rfl, fun document value x h => ?_⟩
  cases x with
  | some dir =>
      have hread : asOptionalDir? value = some (some dir) ↔ value = .string dir := by
        cases value <;> simp [asOptionalDir?]
      rw [hread, h.string_iff]
      rfl
  | none =>
      have hread : asOptionalDir? value = some none ↔ value = .null := by
        cases value <;> simp [asOptionalDir?]
      rw [hread, h.null_iff]
      rfl

/-- A shape finds nothing wrong with what it accepts. -/
theorem findings_eq_nil_iff {shape : Shape} {value : Json} :
    shape.findings value = [] ↔ shape.accepts value = true := by
  unfold Shape.findings
  split
  · next h => exact iff_of_true rfl h
  · next h => exact iff_of_false (List.cons_ne_nil _ _) h

theorem object_findings_ne_nil {value : Json} (h : value.asObject? = none) :
    Shape.object.findings value ≠ [] := by
  rw [Ne, findings_eq_nil_iff]
  cases value with
  | object members => cases h
  | _ => exact Bool.false_ne_true

/-- Nothing is wrong with an object whose values are all accepted. -/
theorem mapFindings_eq_nil_iff {shape : Shape} {value : Json} :
    mapFindings shape value = [] ↔
      ∃ members, value = .object members ∧ ∀ member ∈ members, shape.accepts member.2 = true := by
  unfold mapFindings
  cases value with
  | object members =>
      simp [Json.asObject?, List.flatMap_eq_nil_iff, findings_eq_nil_iff]
  | _ => exact iff_of_false (object_findings_ne_nil rfl) (by simp)

/-- A member that is missing is not wrong. -/
theorem memberFindings_eq_nil_iff {key : Text} {shape : Shape} {value : Json} :
    memberFindings key shape value = [] ↔
      ∀ inner, value.member? key = some inner → mapFindings shape inner = [] := by
  unfold memberFindings
  split
  · next hnone => simp [hnone]
  · next inner hinner => simp [hinner]

-- ===================================================================== maps

variable {α : Type} {shape : Shape} {read? : Json → Option α} {written : α → Document}

/-- The entries that a reader makes of members: the same keys, and under each what it
makes of the member. -/
theorem entries_of_mapM {members : List (Text × Json)} {entries : List (Text × α)}
    (h : (members.mapM fun member => (read? member.2).map fun v => (member.1, v)) = some entries) :
    entries.map Prod.fst = members.map Prod.fst
    ∧ ∀ key, entries.lookup key = (members.lookup key).bind read? := by
  induction members generalizing entries with
  | nil =>
      cases h
      exact ⟨rfl, fun key => rfl⟩
  | cons member members ih =>
      obtain ⟨name, value⟩ := member
      rw [List.mapM_cons] at h
      obtain ⟨first, hfirst, hrest⟩ := Option.bind_eq_some_iff.1 h
      obtain ⟨rest, hmembers, hentries⟩ := Option.bind_eq_some_iff.1 hrest
      obtain ⟨x, hx, rfl⟩ := Option.map_eq_some_iff.1 hfirst
      cases hentries
      obtain ⟨hkeys, hlookup⟩ := ih hmembers
      refine ⟨by rw [List.map_cons, List.map_cons, hkeys], fun key => ?_⟩
      rw [List.lookup_cons, List.lookup_cons]
      cases key == name with
      | true => exact hx.symm
      | false => exact hlookup key

/-- All members are read if each of them can be. -/
theorem mapM_isSome_iff (members : List (Text × Json)) :
    (members.mapM fun member => (read? member.2).map fun v => (member.1, v)).isSome = true
      ↔ ∀ member ∈ members, (read? member.2).isSome = true := by
  induction members with
  | nil => simp
  | cons member members ih =>
      rw [List.mapM_cons, List.forall_mem_cons, ← ih]
      cases read? member.2 with
      | none => simp
      | some x =>
          cases members.mapM fun member => (read? member.2).map fun v => (member.1, v) with
          | none => simp
          | some rest => simp

/-- The check of a map finds nothing just if the map can be read. -/
theorem mapFindings_eq_nil_iff_mapOf? (h : Reads shape read? written) (value : Json) :
    mapFindings shape value = [] ↔ (mapOf? read? value).isSome = true := by
  rw [mapFindings_eq_nil_iff]
  unfold mapOf?
  cases value with
  | object members =>
      simp only [Json.asObject?, Option.isSome_map, mapM_isSome_iff, h.accepts, Json.object.injEq,
        exists_eq_left']
  | _ => simp [Json.asObject?]

/-- The check of a map finds nothing just if a map is written. -/
theorem mapFindings_eq_nil_iff_isMapOf (h : Reads shape read? written) {document : Document}
    {value : Json} (hdenotes : document.Denotes value) :
    mapFindings shape value = [] ↔ document.IsMapOf written := by
  have hkind : ∀ d v, Denotes d v → (shape.accepts v = true ↔ ∃ x, d = written x) := by
    intro d v hd
    rw [h.accepts, Option.isSome_iff_exists]
    exact exists_congr fun x => h.denotes d v x hd
  rw [mapFindings_eq_nil_iff]
  constructor
  · rintro ⟨members, rfl, hall⟩
    refine ⟨hdenotes.isObject_iff.2 ⟨_, rfl⟩, fun key => ?_⟩
    refine (hdenotes.forall_member hkind key).1 fun inner hinner => ?_
    exact hall (key, inner) ((Json.mem_iff_lookup hdenotes.nodup).2 hinner)
  · rintro ⟨hobject, hall⟩
    obtain ⟨members, rfl⟩ := hdenotes.isObject_iff.1 hobject
    refine ⟨members, rfl, fun member hmember => ?_⟩
    exact (hdenotes.forall_member hkind member.1).2 (hall member.1) member.2
      ((Json.mem_iff_lookup hdenotes.nodup).1 hmember)

/-- What is under a key, if anything is, passes the check just if it is a map. -/
theorem memberFindings_eq_nil_iff_hasMap (h : Reads shape read? written) {document : Document}
    {value : Json} (hdenotes : document.Denotes value) (key : Text) :
    memberFindings key shape value = [] ↔ document.HasMap written key := by
  rw [memberFindings_eq_nil_iff]
  exact hdenotes.forall_member (fun d v => mapFindings_eq_nil_iff_isMapOf h) key

-- ------------------------------------------------------------------ entries

/-- Entries are sorted by their keys. -/
theorem pairwise_sortByKey {entries : List (Text × α)} (h : (entries.map Prod.fst).Nodup) :
    (sortByKey entries).Pairwise fun a b => Text.Before a.1 b.1 := by
  have htrans : ∀ a b c : Text × α, Text.notAfter a.1 b.1 = true →
      Text.notAfter b.1 c.1 = true → Text.notAfter a.1 c.1 = true :=
    fun a b c => Text.notAfter_trans
  have htotal : ∀ a b : Text × α, (Text.notAfter a.1 b.1 || Text.notAfter b.1 a.1) = true := by
    intro a b
    cases hab : Text.notAfter a.1 b.1 with
    | true => rfl
    | false => exact Text.notAfter_total hab
  have hsorted := List.pairwise_mergeSort htrans htotal entries
  have hdistinct : (sortByKey entries).Pairwise fun a b => a.1 ≠ b.1 := by
    rw [← List.pairwise_map]
    exact ((List.mergeSort_perm entries _).map Prod.fst).nodup_iff.2 h
  exact (hsorted.and hdistinct).imp fun hab => hab

/-- A map holds the members that were read, each key once. -/
theorem mapOf?_eq_some (h : Reads shape read? written) {document : Document} {value : Json}
    (hdenotes : document.Denotes value) {map : List (Text × α)}
    (hmap : mapOf? read? value = some map) :
    (map.Pairwise fun a b => Text.Before a.1 b.1)
    ∧ ∀ name x, (name, x) ∈ map ↔ document.last? name = some (written x) := by
  unfold mapOf? at hmap
  cases value with
  | object members =>
      obtain ⟨entries, hentries, rfl⟩ := Option.map_eq_some_iff.1 hmap
      obtain ⟨hkeys, hlookup⟩ := entries_of_mapM hentries
      have hnodup : (entries.map Prod.fst).Nodup := hkeys ▸ hdenotes.nodup
      refine ⟨pairwise_sortByKey hnodup, fun name x => ?_⟩
      have hmember : members.lookup name = Json.member? name (.object members) := rfl
      have hrel := hdenotes.member name
      rw [sortByKey, List.mem_mergeSort, Json.mem_iff_lookup hnodup, hlookup, hmember]
      generalize document.last? name = d, Json.member? name (.object members) = v at hrel ⊢
      cases hrel with
      | none => simp
      | some hrel => simpa using h.denotes _ _ x hrel
  | _ => cases hmap

/-- The map in a field holds what is under the key of the field. -/
theorem mapField?_holdsUnder (h : Reads shape read? written) {document : Document}
    {members : List (Text × Json)} (hdenotes : document.Denotes (.object members)) {key : Text}
    {place : Nat} {missing : Option (List (Text × α))} (hmissing : ∀ map ∈ missing, map = [])
    {map : List (Text × α)}
    (hmap : mapField? key place read? missing (.object members) = some map) :
    document.HoldsUnder key written map := by
  have hrel := hdenotes.member key
  have hfield : field? key place (.object members) = Json.member? key (.object members) := rfl
  rw [mapField?, hfield] at hmap
  unfold Document.HoldsUnder
  generalize document.last? key = d, Json.member? key (.object members) = v at hrel hmap ⊢
  cases hrel with
  | none =>
      rw [hmissing map hmap]
      exact ⟨.nil, by simp⟩
  | some hrel => exact mapOf?_eq_some h hrel hmap

/-- A field can be read just if the check finds nothing under its key, or nothing is
there and need not be. -/
theorem mapField?_isSome_iff (h : Reads shape read? written) (members : List (Text × Json))
    (key : Text) (place : Nat) (missing : Option (List (Text × α))) :
    (mapField? key place read? missing (.object members)).isSome = true
      ↔ memberFindings key shape (.object members) = []
        ∧ ((Json.member? key (.object members)).isSome = true ∨ missing.isSome = true) := by
  have hfield : field? key place (.object members) = Json.member? key (.object members) := rfl
  rw [mapField?, hfield, memberFindings]
  cases Json.member? key (.object members) with
  | none => simp
  | some inner => simpa using (mapFindings_eq_nil_iff_mapOf? h inner).symm

-- ================================================================ manifests

/-- A manifest is read from a text without findings. -/
theorem check_eq_ok_iff {β : Type} {path text : Text} {findings : Json → List Text}
    {ofValue? : Json → Option β} {manifest : β} :
    check path text findings ofValue? = .ok manifest ↔
      ∃ value, Json.ofText? text = some value ∧ findings value = []
        ∧ ofValue? value = some manifest := by
  unfold check
  cases Json.ofText? text with
  | none => simp
  | some value =>
      cases hfindings : findings value with
      | nil =>
          cases hvalue : ofValue? value with
          | none => simp [hfindings, hvalue]
          | some found => simp [hfindings, hvalue]
      | cons first rest => simp [hfindings]

/-- What the checks of a primary manifest come to, -/
theorem primaryFindings_eq_nil {value : Json} :
    primaryFindings value = [] ↔
      (∃ members, value = .object members) ∧ (value.member? "plugintypes").isSome = true
      ∧ memberFindings "plugintypes" .string value = []
      ∧ memberFindings "subsystems" .stringOrNull value = [] := by
  unfold primaryFindings
  cases value with
  | object members =>
      simp only [Json.asObject?, List.append_eq_nil_iff, and_assoc, Json.object.injEq, exists_eq',
        true_and]
      cases (Json.member? "plugintypes" (.object members)).isSome <;> simp
  | _ => exact iff_of_false (object_findings_ne_nil rfl) (by simp)

/-- and those of a sub-plugin manifest. -/
theorem subpluginFindings_eq_nil {value : Json} :
    subpluginFindings value = [] ↔
      (∃ members, value = .object members)
      ∧ memberFindings "plugintypes" .string value = []
      ∧ memberFindings "subplugintypes" .string value = [] := by
  unfold subpluginFindings
  cases value with
  | object members => simp [Json.asObject?]
  | _ => exact iff_of_false (object_findings_ne_nil rfl) (by simp)

section Record

variable {σ τ ρ : Type} {make : σ → τ → ρ} {first? : Json → Option σ} {second? : Json → Option τ}

/-- Of an object, a record is made of what its fields are read as. -/
theorem recordOf?_eq_some_iff {members : List (Text × Json)} {r : ρ} :
    recordOf? make first? second? (.object members) = some r ↔
      ∃ first second, first? (.object members) = some first
        ∧ second? (.object members) = some second ∧ make first second = r := by
  rw [recordOf?, isRecord, if_pos rfl]
  cases first? (.object members) with
  | none => simp
  | some first =>
      cases second? (.object members) with
      | none => simp
      | some second => simp

theorem recordOf?_isSome_iff (members : List (Text × Json)) :
    (recordOf? make first? second? (.object members)).isSome = true ↔
      (first? (.object members)).isSome = true ∧ (second? (.object members)).isSome = true := by
  rw [Option.isSome_iff_exists, Option.isSome_iff_exists, Option.isSome_iff_exists]
  constructor
  · rintro ⟨r, h⟩
    obtain ⟨first, second, hfirst, hsecond, -⟩ := recordOf?_eq_some_iff.1 h
    exact ⟨⟨first, hfirst⟩, second, hsecond⟩
  · rintro ⟨⟨first, hfirst⟩, second, hsecond⟩
    exact ⟨_, recordOf?_eq_some_iff.2 ⟨first, second, hfirst, hsecond, rfl⟩⟩

end Record

/-- The check of a primary manifest finds nothing just if it is an object that can be
read. -/
theorem primaryFindings_eq_nil_iff (value : Json) :
    primaryFindings value = [] ↔
      (∃ members, value = .object members) ∧ (Manifest.ofValue? value).isSome = true := by
  rw [primaryFindings_eq_nil]
  refine and_congr_right ?_
  rintro ⟨members, rfl⟩
  rw [Manifest.ofValue?, recordOf?_isSome_iff, mapField?_isSome_iff reads_string,
    mapField?_isSome_iff reads_stringOrNull]
  simp only [Option.isSome_none, Option.isSome_some, Bool.false_eq_true, or_false, or_true, and_true]
  rw [← and_assoc, and_comm (a := (Json.member? _ _).isSome = true)]

/-- The check of a sub-plugin manifest finds nothing just if it is an object that can
be read. -/
theorem subpluginFindings_eq_nil_iff (value : Json) :
    subpluginFindings value = [] ↔
      (∃ members, value = .object members) ∧ (SubpluginManifest.ofValue? value).isSome = true := by
  rw [subpluginFindings_eq_nil]
  refine and_congr_right ?_
  rintro ⟨members, rfl⟩
  rw [SubpluginManifest.ofValue?, recordOf?_isSome_iff, mapField?_isSome_iff reads_string,
    mapField?_isSome_iff reads_string]
  simp only [Option.isSome_some, or_true, and_true]

-- ------------------------------------------------------------- what is written

/-- What a primary manifest looks like. -/
structure IsPrimary (document : Document) : Prop where
  object : document.isObject = true
  required : (document.last? "plugintypes").isSome = true
  pluginTypes : document.HasMap Document.ofString "plugintypes"
  subsystems : document.HasMap Document.ofOptional "subsystems"

/-- What a sub-plugin manifest looks like. -/
structure IsSubplugin (document : Document) : Prop where
  object : document.isObject = true
  pluginTypes : document.HasMap Document.ofString "plugintypes"
  subpluginTypes : document.HasMap Document.ofString "subplugintypes"

variable {document : Document} {value : Json}

/-- A primary manifest passes the checks just if it is one as written. -/
theorem isPrimary_iff (h : document.Denotes value) :
    primaryFindings value = [] ↔ IsPrimary document := by
  have hrequired : (value.member? "plugintypes").isSome = (document.last? "plugintypes").isSome := by
    have hrel := h.member "plugintypes"
    generalize document.last? "plugintypes" = d, value.member? "plugintypes" = v at hrel ⊢
    cases hrel <;> rfl
  rw [primaryFindings_eq_nil, ← h.isObject_iff, hrequired,
    memberFindings_eq_nil_iff_hasMap reads_string h,
    memberFindings_eq_nil_iff_hasMap reads_stringOrNull h]
  exact ⟨fun ⟨hobject, hthere, htypes, hsubsystems⟩ => ⟨hobject, hthere, htypes, hsubsystems⟩,
    fun hprimary => ⟨hprimary.object, hprimary.required, hprimary.pluginTypes, hprimary.subsystems⟩⟩

/-- So does a sub-plugin manifest. -/
theorem isSubplugin_iff (h : document.Denotes value) :
    subpluginFindings value = [] ↔ IsSubplugin document := by
  rw [subpluginFindings_eq_nil, ← h.isObject_iff, memberFindings_eq_nil_iff_hasMap reads_string h,
    memberFindings_eq_nil_iff_hasMap reads_string h]
  exact ⟨fun ⟨hobject, htypes, hsubtypes⟩ => ⟨hobject, htypes, hsubtypes⟩,
    fun hsub => ⟨hsub.object, hsub.pluginTypes, hsub.subpluginTypes⟩⟩

-- ==================================================================== texts

section Reading

variable {β : Type} {findings : Json → List Text} {ofValue? : Json → Option β}
  {path text : Text}

/-- A text is accepted just if its document looks right: what passes the check can be
read. -/
theorem check_isOk_iff {Looks : Document → Prop}
    (hlooks : ∀ d v, Denotes d v → (findings v = [] ↔ Looks d))
    (hread : ∀ v, findings v = [] → (ofValue? v).isSome = true) :
    (∃ m, check path text findings ofValue? = .ok m) ↔ ∃ d, Document.Valid text d ∧ Looks d := by
  constructor
  · rintro ⟨m, hm⟩
    obtain ⟨value, hvalue, hnone, -⟩ := check_eq_ok_iff.1 hm
    obtain ⟨d, hd, hdenotes⟩ := Json.ofText?_eq_some_iff.1 hvalue
    exact ⟨d, ⟨hd, by rw [hdenotes]; rfl⟩, (hlooks d value ⟨_, hdenotes⟩).1 hnone⟩
  · rintro ⟨d, ⟨hd, hsome⟩, hright⟩
    obtain ⟨value, hdenotes⟩ := Option.isSome_iff_exists.1 hsome
    have hnone := (hlooks d value ⟨_, hdenotes⟩).2 hright
    obtain ⟨m, hm⟩ := Option.isSome_iff_exists.1 (hread value hnone)
    exact ⟨m, check_eq_ok_iff.2 ⟨value, Json.ofText?_eq_some_iff.2 ⟨d, hd, hdenotes⟩, hnone, hm⟩⟩

/-- What is accepted is the record of the object that the document denotes. -/
theorem exists_object_of_check {m : β} {d : Document}
    (hobject : ∀ v, findings v = [] → ∃ members, v = .object members)
    (hm : check path text findings ofValue? = .ok m) (hd : Document.ofText? text = some d) :
    ∃ members, d.Denotes (.object members) ∧ ofValue? (.object members) = some m := by
  obtain ⟨value, hvalue, hnone, hread⟩ := check_eq_ok_iff.1 hm
  obtain ⟨d', hd', hdenotes⟩ := Json.ofText?_eq_some_iff.1 hvalue
  obtain rfl : d' = d := Option.some.inj (hd'.symm.trans hd)
  obtain ⟨members, rfl⟩ := hobject value hnone
  exact ⟨members, ⟨_, hdenotes⟩, hread⟩

/-- A manifest has the entries that are written. -/
theorem holdsUnder_of_ofText {m : Manifest} {d : Document}
    (hm : Manifest.ofText path text = .ok m) (hd : Document.ofText? text = some d) :
    d.HoldsUnder "plugintypes" Document.ofString m.pluginTypes
    ∧ d.HoldsUnder "subsystems" Document.ofOptional m.subsystems := by
  obtain ⟨members, hdenotes, hread⟩ := exists_object_of_check
    (fun v hv => ((primaryFindings_eq_nil_iff v).1 hv).1) hm hd
  obtain ⟨types, subsystems, htypes, hsubsystems, rfl⟩ := recordOf?_eq_some_iff.1 hread
  exact ⟨mapField?_holdsUnder reads_string hdenotes (by simp) htypes,
    mapField?_holdsUnder reads_stringOrNull hdenotes (by simp) hsubsystems⟩

theorem holdsUnder_of_subplugin_ofText {m : SubpluginManifest} {d : Document}
    (hm : SubpluginManifest.ofText path text = .ok m) (hd : Document.ofText? text = some d) :
    d.HoldsUnder "plugintypes" Document.ofString m.pluginTypes
    ∧ d.HoldsUnder "subplugintypes" Document.ofString m.subpluginTypes := by
  obtain ⟨members, hdenotes, hread⟩ := exists_object_of_check
    (fun v hv => ((subpluginFindings_eq_nil_iff v).1 hv).1) hm hd
  obtain ⟨types, subtypes, htypes, hsubtypes, rfl⟩ := recordOf?_eq_some_iff.1 hread
  exact ⟨mapField?_holdsUnder reads_string hdenotes (by simp) htypes,
    mapField?_holdsUnder reads_string hdenotes (by simp) hsubtypes⟩

end Reading

/-- A text is accepted as a manifest if and only if it is valid JSON that looks like
one: an object with maps of strings, or of strings and nulls, where those are asked
for. The maps of the manifest are then just what is written under their keys, with the
last value of a repeated key. On objects the check and the reader agree, so nothing
that passes the check fails to be read. -/
theorem manifest_accepted_iff (path text : Text) :
    ((∃ m, Manifest.ofText path text = .ok m) ↔ ∃ d, Document.Valid text d ∧ IsPrimary d)
    ∧ ((∃ m, SubpluginManifest.ofText path text = .ok m)
      ↔ ∃ d, Document.Valid text d ∧ IsSubplugin d)
    ∧ (∀ m d, Manifest.ofText path text = .ok m → Document.ofText? text = some d →
        d.HoldsUnder "plugintypes" Document.ofString m.pluginTypes
        ∧ d.HoldsUnder "subsystems" Document.ofOptional m.subsystems)
    ∧ (∀ m d, SubpluginManifest.ofText path text = .ok m → Document.ofText? text = some d →
        d.HoldsUnder "plugintypes" Document.ofString m.pluginTypes
        ∧ d.HoldsUnder "subplugintypes" Document.ofString m.subpluginTypes)
    ∧ (∀ value, primaryFindings value = [] ↔
        (∃ members, value = .object members) ∧ (Manifest.ofValue? value).isSome = true)
    ∧ ∀ value, subpluginFindings value = [] ↔
        (∃ members, value = .object members)
        ∧ (SubpluginManifest.ofValue? value).isSome = true := by
  refine ⟨?_, ?_, fun m d => holdsUnder_of_ofText, fun m d => holdsUnder_of_subplugin_ofText,
    primaryFindings_eq_nil_iff, subpluginFindings_eq_nil_iff⟩
  · exact check_isOk_iff (fun d v => isPrimary_iff)
      fun v hv => ((primaryFindings_eq_nil_iff v).1 hv).2
  · exact check_isOk_iff (fun d v => isSubplugin_iff)
      fun v hv => ((subpluginFindings_eq_nil_iff v).1 hv).2

/-- Keys that are repeated, at the top and inside, first with values that would be
refused. -/
def repeatedKeys : Text :=
  "\x7b\"plugintypes\": 1, \"other\": [], \"subsystems\": \x7b\"admin\": null\x7d, "
    ++ "\"plugintypes\": \x7b\"mod\": 2, \"mod\": \"mod\"\x7d\x7d"

theorem manifest_accepted_iff_repeatedKeys :
    Manifest.ofText "lib/components.json" repeatedKeys = .ok ⟨[("mod", "mod")], [("admin", none)]⟩
    ∧ ∃ d, Document.Valid repeatedKeys d ∧ IsPrimary d
      ∧ (d.last? "plugintypes").bind (Document.last? "mod") = some (Document.ofString "mod")
      ∧ (d.last? "subsystems").bind (Document.last? "admin") = some .null := by
  have hm : Manifest.ofText "lib/components.json" repeatedKeys
      = .ok ⟨[("mod", "mod")], [("admin", none)]⟩ := by
    decide +kernel
  obtain ⟨hprimary, -, hholds, -⟩ := manifest_accepted_iff "lib/components.json" repeatedKeys
  obtain ⟨d, hvalid, hlooks⟩ := hprimary.1 ⟨_, hm⟩
  obtain ⟨⟨-, htypes⟩, -, hsubsystems⟩ := hholds _ d hm hvalid.1
  exact ⟨hm, d, hvalid, hlooks, (htypes _ _).1 (List.mem_singleton_self _),
    (hsubsystems _ none).1 (List.mem_singleton_self _)⟩

end Manifest

end ComponentPaths
