/-
Members of JSON objects, as they are written and as they are read.

A text may write a key several times. The value of an object has each key once,
with what was written last (`lookup_settle`, `nodup_settle`). So the member of a
value under a key is the value of the last member that is written with that key
(`Denotes.member`), and this is all that has to be known of an object to say what
it holds.
-/
import ComponentPaths.Json.Value

namespace ComponentPaths.Json

-- ================================================================= settling

/-- A new value where a key is, and nothing else. -/
theorem lookup_replaced (members : List (Text × Json)) (key : Text) (value : Json) (k : Text) :
    (members.map fun member => if member.1 == key then (key, value) else member).lookup k
      = if k = key then (members.lookup key).map fun _ => value else members.lookup k := by
  induction members with
  | nil => simp
  | cons member members ih =>
      obtain ⟨name, old⟩ := member
      rw [List.map_cons]
      by_cases hname : name = key
      · subst hname
        by_cases hk : k = name
        · simp [hk]
        · simpa [List.lookup_cons, beq_eq_false_iff_ne.2 hk, hk] using ih
      · have hkey : (key == name) = false := beq_eq_false_iff_ne.2 (Ne.symm hname)
        by_cases hk : k = key
        · subst hk
          simpa [List.lookup_cons, hname, hkey] using ih
        · simp only [beq_eq_false_iff_ne.2 hname, Bool.false_eq_true, if_false, if_neg hk,
            List.lookup_cons] at ih ⊢
          rw [ih]

/-- The last value that was put under a key counts. -/
theorem lookup_putMember (members : List (Text × Json)) (key : Text) (value : Json) (k : Text) :
    (putMember members key value).lookup k
      = if k = key then some value else members.lookup k := by
  unfold putMember
  cases hlookup : members.lookup key with
  | none =>
      have hnone : members.any (·.1 == key) = false := by
        rw [List.any_eq_false]
        intro member hmember heq
        have hne := List.lookup_eq_none_iff.1 hlookup member hmember
        rw [eq_of_beq heq] at hne
        simp at hne
      rw [hnone, if_neg Bool.false_ne_true, List.lookup_append]
      by_cases hk : k = key
      · simp [hk, hlookup]
      · simp [hk, List.lookup_cons, beq_eq_false_iff_ne.2 hk]
  | some old =>
      have hany : members.any (·.1 == key) = true := by
        obtain ⟨front, back, rfl, -⟩ := List.lookup_eq_some_iff.1 hlookup
        simp
      rw [if_pos hany, lookup_replaced, hlookup]
      rfl

/-- The value of an object has what was written last under a key. -/
theorem lookup_settle (written : List (Text × Json)) (key : Text) :
    (settle written).lookup key = written.reverse.lookup key := by
  -- in front of what is settled already
  have hfold : ∀ members : List (Text × Json),
      (written.foldl (fun members member => putMember members member.1 member.2) members).lookup key
        = (written.reverse.lookup key).or (members.lookup key) := by
    induction written with
    | nil => intro members; rfl
    | cons member written ih =>
        intro members
        rw [List.foldl_cons, ih, lookup_putMember, List.reverse_cons, List.lookup_append,
          Option.or_assoc]
        obtain ⟨name, value⟩ := member
        by_cases hkey : key = name
        · simp [hkey]
        · simp [List.lookup_cons, hkey, beq_eq_false_iff_ne.2 hkey]
  exact (hfold []).trans (Option.or_none)

/-- A key stays where it was put first. -/
theorem map_fst_putMember (members : List (Text × Json)) (key : Text) (value : Json) :
    (putMember members key value).map Prod.fst
      = if members.any (·.1 == key) then members.map Prod.fst
        else members.map Prod.fst ++ [key] := by
  unfold putMember
  split
  · rw [List.map_map]
    refine List.map_congr_left fun member _ => ?_
    by_cases hmember : member.1 = key
    · simp [hmember]
    · simp [hmember]
  · rw [List.map_append]
    rfl

/-- The value of an object has no key twice. -/
theorem nodup_settle (written : List (Text × Json)) :
    ((settle written).map Prod.fst).Nodup := by
  have hfold : ∀ members : List (Text × Json), (members.map Prod.fst).Nodup →
      ((written.foldl (fun members member => putMember members member.1 member.2) members).map
        Prod.fst).Nodup := by
    induction written with
    | nil => intro members h; exact h
    | cons member written ih =>
        intro members h
        rw [List.foldl_cons]
        refine ih _ ?_
        rw [map_fst_putMember]
        split
        · exact h
        · next hnew =>
          rw [List.nodup_append]
          refine ⟨h, List.nodup_cons.2 ⟨List.not_mem_nil, List.nodup_nil⟩, ?_⟩
          intro name hname other hother heq
          rw [List.mem_singleton.1 hother] at heq
          obtain ⟨old, hold, rfl⟩ := List.mem_map.1 hname
          exact hnew (List.any_eq_true.2 ⟨old, hold, beq_iff_eq.2 heq⟩)
  exact hfold [] List.nodup_nil

/-- Where no key is there twice, a member is what is found under its key. -/
theorem mem_iff_lookup {α : Type} {members : List (Text × α)}
    (h : (members.map Prod.fst).Nodup) {key : Text} {value : α} :
    (key, value) ∈ members ↔ members.lookup key = some value := by
  induction members with
  | nil => simp
  | cons member members ih =>
      obtain ⟨name, first⟩ := member
      rw [List.map_cons, List.nodup_cons] at h
      rw [List.mem_cons, List.lookup_cons]
      by_cases hkey : key = name
      · subst hkey
        simp only [beq_self_eq_true, Option.some.injEq, Prod.mk.injEq, true_and]
        constructor
        · rintro (rfl | hmem)
          · rfl
          · exact absurd (List.mem_map.2 ⟨_, hmem, rfl⟩) h.1
        · rintro rfl
          exact Or.inl rfl
      · simp only [beq_eq_false_iff_ne.2 hkey, Prod.mk.injEq, hkey, false_and, false_or]
        exact ih h.2

-- ================================================================ documents

namespace Document

/-- Whether a document is an object. -/
def isObject : Document → Bool
  | .object _ => true
  | _ => false

/-- The last member that an object has under a key. -/
def last? (key : Text) : Document → Option Document
  | .object members => members.reverse.lookup (some key)
  | _ => none

/-- What a document means, at some depth. -/
def Denotes (document : Document) (value : Json) : Prop :=
  ∃ depth, ofDocument? depth document = some value

end Document

open Document (Denotes)

/-- What is written last under a key is what is read last. -/
theorem rel_lookup_ofMembers? {depth : Nat} {members : List (Option Text × Document)}
    {written : List (Text × Json)} (h : ofMembers? depth members = some written) (key : Text) :
    Option.Rel Denotes (members.reverse.lookup (some key)) (written.reverse.lookup key) := by
  induction members generalizing written with
  | nil =>
      cases h
      exact .none
  | cons member members ih =>
      obtain ⟨name?, item⟩ := member
      simp only [ofMembers?] at h
      split at h
      · next name value rest hvalue hrest =>
        cases h
        rw [List.reverse_cons, List.reverse_cons, List.lookup_append, List.lookup_append]
        have hlater := ih hrest
        generalize members.reverse.lookup (some key) = later, rest.reverse.lookup key = read
          at hlater ⊢
        cases hlater with
        | some hlater => exact .some hlater
        | none =>
            by_cases hkey : key = name
            · subst hkey
              simpa using Option.Rel.some ⟨depth, hvalue⟩
            · have hname : (some key == some name) = false := by simpa using hkey
              simp [List.lookup_cons, hname, beq_eq_false_iff_ne.2 hkey]
      · cases h

namespace Document

variable {document : Document} {value : Json}

theorem last?_eq_none (h : document.isObject = false) (key : Text) : document.last? key = none := by
  cases document with
  | object members => cases h
  | _ => rfl

theorem member?_eq_none (h : value.asObject? = none) (key : Text) : value.member? key = none := by
  cases value with
  | object members => cases h
  | _ => rfl

/-- Objects denote objects, with their members settled. Nothing else does, and strings
and nulls are what they are written as. -/
theorem Denotes.cases (h : document.Denotes value) :
    (∃ members written, document = .object members ∧ value = .object (settle written)
      ∧ ∃ depth, ofMembers? depth members = some written)
    ∨ document.isObject = false ∧ value.asObject? = none
      ∧ (∀ t, value = .string t ↔ document = .string (some t))
      ∧ (value = .null ↔ document = .null) := by
  obtain ⟨depth, h⟩ := h
  cases document with
  | object members =>
      cases depth with
      | zero => cases h
      | succ depth =>
          obtain ⟨written, hwritten, rfl⟩ := Option.map_eq_some_iff.1 h
          exact Or.inl ⟨members, written, rfl, rfl, depth, hwritten⟩
  | array items =>
      cases depth with
      | zero => cases h
      | succ depth =>
          obtain ⟨values, -, rfl⟩ := Option.map_eq_some_iff.1 h
          exact Or.inr ⟨rfl, rfl, by simp, by simp⟩
  | null =>
      cases h
      exact Or.inr ⟨rfl, rfl, by simp, by simp⟩
  | bool b =>
      cases h
      exact Or.inr ⟨rfl, rfl, by simp, by simp⟩
  | number n =>
      obtain ⟨n, -, rfl⟩ := Option.map_eq_some_iff.1 h
      exact Or.inr ⟨rfl, rfl, by simp, by simp⟩
  | string t =>
      obtain ⟨t, rfl, rfl⟩ := Option.map_eq_some_iff.1 h
      exact Or.inr ⟨rfl, rfl, by simp, by simp⟩

theorem Denotes.string_iff (h : document.Denotes value) (t : Text) :
    value = .string t ↔ document = .string (some t) := by
  rcases h.cases with ⟨members, written, rfl, rfl, -⟩ | ⟨-, -, hstring, -⟩
  · simp
  · exact hstring t

theorem Denotes.null_iff (h : document.Denotes value) : value = .null ↔ document = .null := by
  rcases h.cases with ⟨members, written, rfl, rfl, -⟩ | ⟨-, -, -, hnull⟩
  · simp
  · exact hnull

/-- The member of a value is the value of the last member that is written. -/
theorem Denotes.member (h : document.Denotes value) (key : Text) :
    Option.Rel Denotes (document.last? key) (value.member? key) := by
  rcases h.cases with ⟨members, written, rfl, rfl, depth, hwritten⟩ | ⟨hdocument, hvalue, -⟩
  · show Option.Rel Denotes (members.reverse.lookup (some key)) ((settle written).lookup key)
    rw [lookup_settle]
    exact rel_lookup_ofMembers? hwritten key
  · rw [last?_eq_none hdocument, member?_eq_none hvalue]
    exact .none

end Document

end ComponentPaths.Json
