/-
Nodes hang together as the objects of a dump do.

The nodes of a value have the numbers from some number on, as many as the value
has objects. `Carries` says of an arena that they are there, each with the kind
of its object and with children for the members of the object, in their order.
It speaks of those numbers only, so whatever is lowered later takes nothing of it
away (`Carries.congr`): an arena only grows at its end, and of the nodes that are
there already none changes but the one that gets the new children (`Adds`).

What the rules for paths ask an arena for can then be read from the dump. The
children of a node in a role are the nodes of the member with that key
(`CarriesFields.carries_role`).
-/
import ComponentPaths.Proofs.Dump.Lowering
import Mathlib.Data.List.Forall2

namespace ComponentPaths.Dump

mutual

/-- From the number `n` on, an arena has the nodes of a value. Those of them that no
other one holds are `tops`, and have the role `role`. -/
def Carries (a : Arena) (role : Text) (n : Nat) : Json → List Nat → Prop
  | .object members, tops =>
    if isNode members then
      tops = [n] ∧ a.hasRole role n = true ∧ a.kind n = kindOf (typeOf members) members
        ∧ CarriesFields a (n + 1) members (a.children n)
    else tops = []
  | .array items, tops => CarriesItems a role n items tops
  | _, tops => tops = []

/-- The items of an array, one after the other. -/
def CarriesItems (a : Arena) (role : Text) (n : Nat) : List Json → List Nat → Prop
  | [], tops => tops = []
  | item :: rest, tops =>
    ∃ first others, tops = first ++ others ∧ Carries a role n item first
      ∧ CarriesItems a role (n + (objects item).length) rest others

/-- The members of an object that can hold nodes, each in the role of its key. -/
def CarriesFields (a : Arena) (n : Nat) : List (Text × Json) → List Nat → Prop
  | [], tops => tops = []
  | (key, value) :: rest, tops =>
    if isPlain key then CarriesFields a n rest tops
    else ∃ first others, tops = first ++ others ∧ Carries a key n value first
      ∧ CarriesFields a (n + (objects value).length) rest others

end

-- ============================================================ what is kept

section Frame

variable {a b : Arena}

mutual

/-- Only the nodes of the value matter. -/
theorem Carries.congr (value : Json) {role : Text} {n : Nat} {tops : List Nat}
    (hsame : ∀ id, n ≤ id → id < n + (objects value).length → b.node? id = a.node? id)
    (h : Carries a role n value tops) : Carries b role n value tops := by
  match value with
  | .object members =>
      rw [Carries] at h ⊢
      rw [objects] at hsame
      split at h
      · next hnode =>
        rw [if_pos hnode, List.length_cons] at hsame
        rw [if_pos hnode]
        obtain ⟨htops, hrole, hkind, hfields⟩ := h
        have hn : b.node? n = a.node? n := hsame n (Nat.le_refl n) (by omega)
        refine ⟨htops, ?_, ?_, ?_⟩
        · rwa [Arena.hasRole, hn]
        · rwa [Arena.kind, hn]
        · rw [Arena.children, hn]
          exact CarriesFields.congr members 0 (fun id hle hlt => hsame id (by omega) (by omega))
            hfields
      · next hnode =>
        rw [if_neg hnode]
        exact h
  | .array items =>
      rw [Carries] at h ⊢
      rw [objects] at hsame
      exact CarriesItems.congr items 0 hsame h
  | .null | .bool _ | .number _ | .string _ =>
      simpa [Carries] using h

/-- The same holds of items, -/
theorem CarriesItems.congr (items : List Json) (i : Nat) {role : Text} {n : Nat}
    {tops : List Nat}
    (hsame : ∀ id, n ≤ id → id < n + (objectsOfItems i items).length → b.node? id = a.node? id)
    (h : CarriesItems a role n items tops) : CarriesItems b role n items tops := by
  match items with
  | [] => exact h
  | item :: rest =>
      rw [CarriesItems] at h ⊢
      rw [objectsOfItems, List.length_append, List.length_map] at hsame
      obtain ⟨first, others, htops, hfirst, hothers⟩ := h
      refine ⟨first, others, htops, ?_, ?_⟩
      · exact Carries.congr item (fun id hle hlt => hsame id hle (by omega)) hfirst
      · exact CarriesItems.congr rest (i + 1)
          (fun id hle hlt => hsame id (by omega) (by omega)) hothers

/-- and of members. -/
theorem CarriesFields.congr (fields : List (Text × Json)) (i : Nat) {n : Nat}
    {tops : List Nat}
    (hsame : ∀ id, n ≤ id → id < n + (objectsOfFields i fields).length →
      b.node? id = a.node? id)
    (h : CarriesFields a n fields tops) : CarriesFields b n fields tops := by
  match fields with
  | [] => exact h
  | (key, value) :: rest =>
      rw [CarriesFields] at h ⊢
      rw [objectsOfFields, List.length_append] at hsame
      split at h
      · next hkey =>
        rw [if_pos hkey, List.length_nil, Nat.zero_add] at hsame
        rw [if_pos hkey]
        exact CarriesFields.congr rest (i + 1) hsame h
      · next hkey =>
        rw [if_neg hkey, List.length_map] at hsame
        rw [if_neg hkey]
        obtain ⟨first, others, htops, hfirst, hothers⟩ := h
        refine ⟨first, others, htops, ?_, ?_⟩
        · exact Carries.congr value (fun id hle hlt => hsame id hle (by omega)) hfirst
        · exact CarriesFields.congr rest (i + 1)
            (fun id hle hlt => hsame id (by omega) (by omega)) hothers

end

end Frame

/-- A node with more children. -/
def adoptAll (tops : List Nat) (n : Arena.Node) : Arena.Node :=
  { n with children := n.children ++ tops }

/-- From one arena to another, nothing changed in what was there but that `parent`
got the children `tops`. -/
def Adds (parent : Option Nat) (tops : List Nat) (a b : Arena) : Prop :=
  ∀ id, id < a.size →
    b.node? id = if parent = some id then (a.node? id).map (adoptAll tops) else a.node? id

section Adds

variable {parent : Option Nat} {role : Text} {fallback : Nat} {members : Members}
  {tops more : List Nat} {a b c : Arena}

theorem adds_refl : Adds parent [] a a := by
  intro id _
  split
  · cases a.node? id with
    | none => rfl
    | some n => simp [adoptAll]
  · rfl

/-- Nodes can be added in two parts. -/
theorem Adds.trans (hab : Adds parent tops a b) (hbc : Adds parent more b c)
    (hsize : a.size ≤ b.size) : Adds parent (tops ++ more) a c := by
  intro id hid
  rw [hbc id (by omega), hab id hid]
  split
  · rw [Option.map_map]
    congr 1
    funext n
    simp [adoptAll]
  · rfl

/-- A node that is added last is the last child, whatever comes below it. -/
theorem Adds.node (h : Adds (some a.size) more (pushNode a parent role fallback members) b) :
    Adds parent [a.size] a b := by
  intro id hid
  have hne : ¬some a.size = some id := by
    intro heq
    cases heq
    omega
  rw [h id (by rw [size_pushNode]; omega), if_neg hne, pushNode, Arena.node?_push,
    if_neg (by omega)]
  rfl

/-- The node that is added gets the children that come below it, and nothing else
of it changes. -/
theorem Adds.top (h : Adds (some a.size) tops (pushNode a parent role fallback members) b) :
    b.hasRole role a.size = true ∧ b.kind a.size = kindOf (typeOf members) members
      ∧ b.children a.size = tops := by
  have hnode := h a.size (by rw [size_pushNode]; omega)
  rw [if_pos rfl, pushNode, Arena.node?_push, if_pos rfl, Option.map_some] at hnode
  refine ⟨?_, ?_, ?_⟩
  · simp [Arena.hasRole, hnode, adoptAll]
  · simp [Arena.kind, hnode, adoptAll]
  · simp [Arena.children, hnode, adoptAll]

/-- A value stays carried while its parent gets more children. -/
theorem Adds.carries {value : Json} (h : Adds parent more b c)
    (hparent : ∀ p, parent = some p → p < a.size)
    (hsize : b.size = a.size + (objects value).length)
    (hvalue : Carries b role a.size value tops) : Carries c role a.size value tops := by
  refine Carries.congr value (fun id hle hlt => ?_) hvalue
  rw [h id (by omega), if_neg]
  intro heq
  have := hparent id heq
  omega

end Adds

-- ================================================================= lowering

mutual

/-- Lowering a value adds nodes that carry it. -/
theorem carries_value (value : Json) (role : Text) {parent : Option Nat} {fallback : Nat}
    {a : Arena} (h : Ready parent fallback a) :
    ∃ tops, Adds parent tops a (lowerValue parent role fallback value a)
      ∧ Carries (lowerValue parent role fallback value a) role a.size value tops := by
  match value with
  | .object members =>
      rw [lowerValue]
      simp only [Carries]
      split
      · obtain ⟨tops, hadds, hfields⟩ := carries_fields members (ready_pushNode h)
        rw [size_pushNode] at hfields
        obtain ⟨hrole, hkind, hchildren⟩ := hadds.top
        exact ⟨[a.size], hadds.node, rfl, hrole, hkind, by rw [hchildren]; exact hfields⟩
      · exact ⟨[], adds_refl, rfl⟩
  | .array items =>
      rw [lowerValue]
      simp only [Carries]
      exact carries_items items role h
  | .null | .bool _ | .number _ | .string _ =>
      exact ⟨[], adds_refl, by simp [Carries]⟩

theorem carries_items (items : List Json) (role : Text) {parent : Option Nat}
    {fallback : Nat} {a : Arena} (h : Ready parent fallback a) :
    ∃ tops, Adds parent tops a (lowerItems parent role fallback items a)
      ∧ CarriesItems (lowerItems parent role fallback items a) role a.size items tops := by
  match items with
  | [] => exact ⟨[], adds_refl, rfl⟩
  | item :: rest =>
      have hlowers := lowers_value item role h
      have hsize := hlowers.size
      rw [List.length_map] at hsize
      obtain ⟨first, hadds, hfirst⟩ := carries_value item role h
      obtain ⟨others, hmore, hothers⟩ := carries_items rest role (hlowers.ready h)
      rw [hsize] at hothers
      have hkept := hmore.carries (fun p hp => (h.isOpen p hp).1) hsize hfirst
      exact ⟨first ++ others, hadds.trans hmore (by omega), first, others, rfl, hkept, hothers⟩

theorem carries_fields (fields : List (Text × Json)) {id start : Nat} {a : Arena}
    (h : Ready (some id) start a) :
    ∃ tops, Adds (some id) tops a (lowerFields id start fields a)
      ∧ CarriesFields (lowerFields id start fields a) a.size fields tops := by
  match fields with
  | [] => exact ⟨[], adds_refl, rfl⟩
  | (key, value) :: rest =>
      rw [lowerFields]
      simp only [CarriesFields]
      split
      · exact carries_fields rest h
      · have hlowers := lowers_value value key h
        have hsize := hlowers.size
        rw [List.length_map] at hsize
        obtain ⟨first, hadds, hfirst⟩ := carries_value value key h
        obtain ⟨others, hmore, hothers⟩ := carries_fields rest (hlowers.ready h)
        rw [hsize] at hothers
        have hkept := hmore.carries (fun p hp => (h.isOpen p hp).1) hsize hfirst
        exact ⟨first ++ others, hadds.trans hmore (by omega), first, others, rfl, hkept, hothers⟩

end

-- ================================================================== objects

/-- A node stands for an object: it has its kind, and children for its members. -/
structure Stands (a : Arena) (id : Nat) (members : Members) : Prop where
  kind : a.kind id = kindOf (typeOf members) members
  fields : CarriesFields a (id + 1) members (a.children id)

/-- An object is in the first part of a value, or in the later ones. -/
theorem getElem?_inPart {i k : Nat} {found later : List (List Nat × Members)}
    {position : List Nat} {m : Members}
    (h : (found.map (inPart i) ++ later)[k]? = some (position, m)) :
    (∃ rest, found[k]? = some (rest, m))
    ∨ found.length ≤ k ∧ later[k - found.length]? = some (position, m) := by
  rw [List.getElem?_append, List.length_map] at h
  split at h
  · rw [List.getElem?_map] at h
    obtain ⟨⟨rest, m'⟩, hk, heq⟩ := Option.map_eq_some_iff.1 h
    cases heq
    exact Or.inl ⟨rest, hk⟩
  · exact Or.inr ⟨by omega, h⟩

mutual

/-- Node number `k` of a value stands for object number `k`. -/
theorem Carries.stands {a : Arena} (value : Json) {role : Text} {n k : Nat} {tops : List Nat}
    {position : List Nat} {m : Members} (h : Carries a role n value tops)
    (hk : (objects value)[k]? = some (position, m)) : Stands a (n + k) m := by
  match value with
  | .object members =>
      rw [Carries] at h
      rw [objects] at hk
      split at h
      · next hnode =>
        rw [if_pos hnode] at hk
        obtain ⟨-, -, hkind, hfields⟩ := h
        cases k with
        | zero =>
            cases hk
            exact ⟨hkind, hfields⟩
        | succ k =>
            rw [show n + (k + 1) = n + 1 + k by omega]
            exact CarriesFields.stands members 0 hfields hk
      · next hnode =>
        rw [if_neg hnode] at hk
        cases hk
  | .array items =>
      rw [Carries] at h
      rw [objects] at hk
      exact CarriesItems.stands items 0 h hk
  | .null | .bool _ | .number _ | .string _ =>
      simp [objects] at hk

/-- The nodes of items stand for their objects, in order. -/
theorem CarriesItems.stands {a : Arena} (items : List Json) (i : Nat) {role : Text}
    {n k : Nat} {tops : List Nat} {position : List Nat} {m : Members}
    (h : CarriesItems a role n items tops)
    (hk : (objectsOfItems i items)[k]? = some (position, m)) : Stands a (n + k) m := by
  match items with
  | [] => simp [objectsOfItems] at hk
  | item :: rest =>
      rw [CarriesItems] at h
      obtain ⟨first, others, -, hfirst, hothers⟩ := h
      rw [objectsOfItems] at hk
      rcases getElem?_inPart hk with ⟨position', hk⟩ | ⟨hle, hk⟩
      · exact Carries.stands item hfirst hk
      · have hstands := CarriesItems.stands rest (i + 1) hothers hk
        rwa [show n + (objects item).length + (k - (objects item).length) = n + k by omega]
          at hstands

theorem CarriesFields.stands {a : Arena} (fields : List (Text × Json)) (i : Nat) {n k : Nat}
    {tops : List Nat} {position : List Nat} {m : Members} (h : CarriesFields a n fields tops)
    (hk : (objectsOfFields i fields)[k]? = some (position, m)) : Stands a (n + k) m := by
  match fields with
  | [] => simp [objectsOfFields] at hk
  | (key, value) :: rest =>
      rw [CarriesFields] at h
      rw [objectsOfFields] at hk
      split at h
      · next hkey =>
        rw [if_pos hkey, List.nil_append] at hk
        exact CarriesFields.stands rest (i + 1) h hk
      · next hkey =>
        obtain ⟨first, others, -, hfirst, hothers⟩ := h
        rw [if_neg hkey] at hk
        rcases getElem?_inPart hk with ⟨position', hk⟩ | ⟨hle, hk⟩
        · exact Carries.stands value hfirst hk
        · have hstands := CarriesFields.stands rest (i + 1) hothers hk
          rwa [show n + (objects value).length + (k - (objects value).length) = n + k by omega]
            at hstands

end

/-- A value with nodes is a dump. -/
theorem isDump_of_objects {value : Json} (h : objects value ≠ []) : isDump value = true := by
  unfold objects at h
  split at h
  · split at h
    · next hnode => exact hnode
    · exact absurd rfl h
  · rfl
  · exact absurd rfl h

/-- A value with an object can be lowered, and each object has its node. -/
theorem exists_stands (source : Bytes) {value : Json} {id : Nat} {position : List Nat}
    {m : Members} (hid : (objects value)[id]? = some (position, m)) :
    ∃ a, lowerJson source value = .ok a ∧ Stands a id m := by
  have hdump : isDump value = true := by
    refine isDump_of_objects fun hnone => ?_
    rw [hnone] at hid
    cases hid
  obtain ⟨tops, -, hcarries⟩ := carries_value value "stmts" (ready_empty source)
  refine ⟨lowerValue none "stmts" 0 value (Arena.empty source), if_pos hdump, ?_⟩
  have hstands := hcarries.stands value hid
  rwa [show (Arena.empty source).size + id = id from Nat.zero_add id] at hstands

-- ==================================================================== roles

section Roles

variable {a : Arena}

mutual

/-- The nodes on top have the role under which the value was lowered. -/
theorem Carries.hasRole (value : Json) {role : Text} {n : Nat} {tops : List Nat}
    (h : Carries a role n value tops) : ∀ id ∈ tops, a.hasRole role id = true := by
  match value with
  | .object members =>
      rw [Carries] at h
      split at h
      · obtain ⟨rfl, hrole, -, -⟩ := h
        intro id hid
        rwa [List.mem_singleton.1 hid]
      · subst h
        exact fun id hid => (by cases hid)
  | .array items =>
      rw [Carries] at h
      exact CarriesItems.hasRole items h
  | .null | .bool _ | .number _ | .string _ =>
      have hnone : tops = [] := by simpa [Carries] using h
      subst hnone
      exact fun id hid => (by cases hid)

theorem CarriesItems.hasRole (items : List Json) {role : Text} {n : Nat} {tops : List Nat}
    (h : CarriesItems a role n items tops) : ∀ id ∈ tops, a.hasRole role id = true := by
  match items with
  | [] =>
      rw [CarriesItems] at h
      subst h
      exact fun id hid => (by cases hid)
  | item :: rest =>
      rw [CarriesItems] at h
      obtain ⟨first, others, rfl, hfirst, hothers⟩ := h
      intro id hid
      rcases List.mem_append.1 hid with hid | hid
      · exact Carries.hasRole item hfirst id hid
      · exact CarriesItems.hasRole rest hothers id hid

end

/-- A node has one role. -/
theorem hasRole_ne {role other : Text} {id : Nat} (h : a.hasRole role id = true)
    (hne : role ≠ other) : a.hasRole other id = false := by
  unfold Arena.hasRole at h ⊢
  cases hnode : a.node? id with
  | none =>
      rw [hnode] at h
      cases h
  | some n =>
      rw [hnode] at h
      have hrole : n.role = role := by simpa using h
      simpa [hrole] using hne

theorem Carries.filter_eq_nil {value : Json} {role other : Text} {n : Nat} {tops : List Nat}
    (h : Carries a role n value tops) (hne : role ≠ other) :
    tops.filter (a.hasRole other) = [] := by
  rw [List.filter_eq_nil_iff]
  intro id hid
  rw [hasRole_ne (Carries.hasRole value h id hid) hne]
  simp

/-- No node has a role that is not a key. -/
theorem CarriesFields.filter_absent {fields : List (Text × Json)} {key : Text} {n : Nat}
    {tops : List Nat} (h : CarriesFields a n fields tops) (hkey : key ∉ fields.map Prod.fst) :
    tops.filter (a.hasRole key) = [] := by
  induction fields generalizing n tops with
  | nil =>
      rw [CarriesFields] at h
      rw [h, List.filter_nil]
  | cons field rest ih =>
      obtain ⟨other, value⟩ := field
      rw [List.map_cons, List.mem_cons, not_or] at hkey
      rw [CarriesFields] at h
      split at h
      · exact ih h hkey.2
      · obtain ⟨first, others, rfl, hfirst, hothers⟩ := h
        rw [List.filter_append, ih hothers hkey.2, List.append_nil]
        exact hfirst.filter_eq_nil (Ne.symm hkey.1)

/-- The children in a role are the nodes of the member with that key. -/
theorem CarriesFields.carries_role {fields : List (Text × Json)} {key : Text} {value : Json}
    {n : Nat} {tops : List Nat} (h : CarriesFields a n fields tops)
    (hkeys : (fields.map Prod.fst).Nodup) (hplain : isPlain key = false)
    (hfield : fields.lookup key = some value) :
    ∃ k, Carries a key k value (tops.filter (a.hasRole key)) := by
  induction fields generalizing n tops with
  | nil => cases hfield
  | cons field rest ih =>
      obtain ⟨other, found⟩ := field
      rw [List.map_cons, List.nodup_cons] at hkeys
      rw [CarriesFields] at h
      rw [List.lookup_cons] at hfield
      by_cases hkey : key = other
      · subst hkey
        rw [if_neg (by rw [hplain]; simp)] at h
        obtain ⟨first, others, rfl, hfirst, hothers⟩ := h
        have hvalue : found = value := by simpa using hfield
        subst hvalue
        refine ⟨n, ?_⟩
        rw [List.filter_append, hothers.filter_absent hkeys.1, List.append_nil,
          List.filter_eq_self.2 (Carries.hasRole found hfirst)]
        exact hfirst
      · have hrest : rest.lookup key = some value := by
          rwa [show (key == other) = false by simpa using hkey] at hfield
        split at h
        · exact ih h hkeys.2 hrest
        · obtain ⟨first, others, rfl, hfirst, hothers⟩ := h
          rw [List.filter_append, hfirst.filter_eq_nil (Ne.symm hkey), List.nil_append]
          exact ih hothers hkeys.2 hrest

section Stands

variable {id : Nat} {m : Members} {key : Text} (h : Stands a id m)
  (hkeys : (m.map Prod.fst).Nodup) (hplain : isPlain key = false)

include h hkeys hplain

/-- A member that is a node is the child in the role of its key. -/
theorem Stands.exists_child {child : Members} (hfield : field? m key = some (.object child))
    (hnode : isNode child = true) :
    ∃ c, a.childByRole? id key = some c ∧ Stands a c child := by
  obtain ⟨k, hcarries⟩ := h.fields.carries_role hkeys hplain hfield
  rw [Carries, if_pos hnode] at hcarries
  obtain ⟨htops, -, hkind, hfields⟩ := hcarries
  refine ⟨k, ?_, hkind, hfields⟩
  unfold Arena.childByRole?
  rw [← List.head?_filter, htops]
  rfl

/-- A list of nodes is the children in the role of its key. -/
theorem Stands.forall₂_children {objs : List Members}
    (hfield : field? m key = some (.array (objs.map .object)))
    (hnodes : ∀ child ∈ objs, isNode child = true) :
    List.Forall₂ (Stands a) (a.childrenByRole id key) objs := by
  obtain ⟨k, hcarries⟩ := h.fields.carries_role hkeys hplain hfield
  rw [Carries] at hcarries
  unfold Arena.childrenByRole
  generalize (a.children id).filter (a.hasRole key) = tops at hcarries
  clear hfield
  induction objs generalizing k tops with
  | nil =>
      rw [show tops = [] from hcarries]
      exact .nil
  | cons child rest ih =>
      rw [List.map_cons, CarriesItems] at hcarries
      obtain ⟨first, others, rfl, hfirst, hothers⟩ := hcarries
      rw [Carries, if_pos (hnodes child List.mem_cons_self)] at hfirst
      obtain ⟨rfl, -, hkind, hfields⟩ := hfirst
      exact .cons ⟨hkind, hfields⟩
        (ih (fun c hc => hnodes c (List.mem_cons_of_mem _ hc)) _ _ hothers)

end Stands

end Roles

end ComponentPaths.Dump
