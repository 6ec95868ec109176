/-
The arena of a dump is well formed, whatever the dump says.

A dump is untrusted: positions may be missing or absurd, and nodes may hang
below anything. Two things keep the arena in shape all the same. A span
starts where its parent starts unless it says better, so the start that is
handed down is always within the file (`spanOf_fits`). And a node is added
before whatever is below it, while all the nodes around it are still open,
so the arena grows depth first (`Grown`).

Which objects become nodes is said without the lowering: those that are
reached from the top (`Reaches`), each by the position that leads to it.
`objects` lists them in document order, and lowering a value adds exactly
the nodes of that list (`Lowers`). The three functions of the lowering call
each other, so there is one lemma for each: of a value, of the items of an
array, of the members of a node. What they hand on to each other is `Ready`.
-/
import ComponentPaths.Dump
import ComponentPaths.Proofs.Arena.Growth

namespace ComponentPaths.Dump

open Arena (Grown Open Within Below Kind)

-- ================================================================== objects

/-- An object is reached in a value, by a position: at the top, through the
items of arrays, and through the members of nodes that can hold nodes. -/
inductive Reaches : Json → List Nat → Members → Prop
  | here {members : Members} (node : isNode members = true) :
      Reaches (.object members) [] members
  | item {items : List Json} {i : Nat} {value : Json} {position : List Nat} {found : Members}
      (at_i : items[i]? = some value) (below : Reaches value position found) :
      Reaches (.array items) (i :: position) found
  | field {members : Members} {i : Nat} {key : Text} {value : Json} {position : List Nat}
      {found : Members} (node : isNode members = true) (at_i : members[i]? = some (key, value))
      (holds : isPlain key = false) (below : Reaches value position found) :
      Reaches (.object members) (i :: position) found

/-- What is found in part `i` of a value. -/
def inPart (i : Nat) (found : List Nat × Members) : List Nat × Members :=
  (i :: found.1, found.2)

mutual

/-- The objects that are reached in a value, in document order. -/
def objects : Json → List (List Nat × Members)
  | .object members => if isNode members then ([], members) :: objectsOfFields 0 members else []
  | .array items => objectsOfItems 0 items
  | _ => []

/-- The nodes of the items of an array, the first of which has the position `i`. -/
def objectsOfItems (i : Nat) : List Json → List (List Nat × Members)
  | [] => []
  | item :: rest => (objects item).map (inPart i) ++ objectsOfItems (i + 1) rest

/-- The nodes of the members of an object, the first of which has the position `i`. -/
def objectsOfFields (i : Nat) : List (Text × Json) → List (List Nat × Members)
  | [] => []
  | (key, value) :: rest =>
    (if isPlain key then [] else (objects value).map (inPart i)) ++ objectsOfFields (i + 1) rest

end

/-- Nodes of a part have positions that start with the part. -/
theorem mem_map_inPart {i : Nat} {found : List (List Nat × Members)} {position : List Nat}
    {m : Members} :
    (position, m) ∈ found.map (inPart i) ↔ ∃ rest, position = i :: rest ∧ (rest, m) ∈ found := by
  rw [List.mem_map]
  constructor
  · rintro ⟨⟨rest, m'⟩, hmem, heq⟩
    cases heq
    exact ⟨rest, rfl, hmem⟩
  · rintro ⟨rest, rfl, hmem⟩
    exact ⟨(rest, m), hmem, rfl⟩

mutual

/-- The nodes of a value are those that can be reached in it. -/
theorem mem_objects (value : Json) (position : List Nat) (m : Members) :
    (position, m) ∈ objects value ↔ Reaches value position m := by
  match value with
  | .object members =>
      rw [objects]
      constructor
      · intro h
        split at h
        · rename_i hnode
          rcases List.mem_cons.1 h with heq | h
          · cases heq
            exact .here hnode
          · obtain ⟨j, key, part, rest, hj, hkey, rfl, hreach⟩ :=
              (mem_objectsOfFields members 0 position m).1 h
            rw [Nat.zero_add]
            exact .field hnode hj hkey hreach
        · cases h
      · intro h
        cases h with
        | here hnode =>
            rw [if_pos hnode]
            exact List.mem_cons_self
        | field hnode hj hkey hreach =>
            rw [if_pos hnode]
            refine List.mem_cons_of_mem _ ((mem_objectsOfFields members 0 _ m).2 ?_)
            exact ⟨_, _, _, _, hj, hkey, by rw [Nat.zero_add], hreach⟩
  | .array items =>
      rw [objects, mem_objectsOfItems items 0 position m]
      constructor
      · rintro ⟨j, part, rest, hj, rfl, hreach⟩
        rw [Nat.zero_add]
        exact .item hj hreach
      · intro h
        cases h with
        | item hj hreach => exact ⟨_, _, _, hj, by rw [Nat.zero_add], hreach⟩
  | .null | .bool _ | .number _ | .string _ =>
      constructor
      · intro h
        simp [objects] at h
      · intro h
        cases h

/-- The nodes of items are those reached through one of them, -/
theorem mem_objectsOfItems (items : List Json) (i : Nat) (position : List Nat) (m : Members) :
    (position, m) ∈ objectsOfItems i items
      ↔ ∃ j value rest, items[j]? = some value ∧ position = (i + j) :: rest
        ∧ Reaches value rest m := by
  match items with
  | [] => simp [objectsOfItems]
  | item :: others =>
      rw [objectsOfItems, List.mem_append, mem_map_inPart,
        mem_objectsOfItems others (i + 1) position m]
      constructor
      · rintro (⟨rest, rfl, hmem⟩ | ⟨j, value, rest, hj, rfl, hreach⟩)
        · exact ⟨0, item, rest, rfl, rfl, (mem_objects item rest m).1 hmem⟩
        · exact ⟨j + 1, value, rest, hj, by rw [Nat.add_right_comm]; rfl, hreach⟩
      · rintro ⟨j, value, rest, hj, rfl, hreach⟩
        cases j with
        | zero =>
            cases hj
            exact Or.inl ⟨rest, rfl, (mem_objects item rest m).2 hreach⟩
        | succ j => exact Or.inr ⟨j, value, rest, hj, by rw [Nat.add_right_comm]; rfl, hreach⟩

/-- and the nodes of members those reached through one that can hold nodes. -/
theorem mem_objectsOfFields (fields : List (Text × Json)) (i : Nat) (position : List Nat)
    (m : Members) :
    (position, m) ∈ objectsOfFields i fields
      ↔ ∃ j key value rest, fields[j]? = some (key, value) ∧ isPlain key = false
        ∧ position = (i + j) :: rest ∧ Reaches value rest m := by
  match fields with
  | [] => simp [objectsOfFields]
  | (key, value) :: others =>
      rw [objectsOfFields, List.mem_append, mem_objectsOfFields others (i + 1) position m]
      constructor
      · rintro (h | ⟨j, key', value', rest, hj, hkey, rfl, hreach⟩)
        · split at h
          · cases h
          · rename_i hkey
            obtain ⟨rest, rfl, hmem⟩ := mem_map_inPart.1 h
            exact ⟨0, key, value, rest, rfl, by simpa using hkey, rfl,
              (mem_objects value rest m).1 hmem⟩
        · exact ⟨j + 1, key', value', rest, hj, hkey, by rw [Nat.add_right_comm]; rfl, hreach⟩
      · rintro ⟨j, key', value', rest, hj, hkey, rfl, hreach⟩
        cases j with
        | zero =>
            cases hj
            rw [if_neg (by simp [hkey])]
            exact Or.inl (mem_map_inPart.2 ⟨rest, rfl, (mem_objects value rest m).2 hreach⟩)
        | succ j =>
            exact Or.inr ⟨j, key', value', rest, hj, hkey, by rw [Nat.add_right_comm]; rfl, hreach⟩

end

-- =========================================================== document order

/-- One position comes before another in a document. -/
def Precedes (x y : List Nat × Members) : Prop :=
  List.Lex (· < ·) x.1 y.1

theorem pairwise_map_inPart {i : Nat} {found : List (List Nat × Members)}
    (h : found.Pairwise Precedes) : (found.map (inPart i)).Pairwise Precedes :=
  List.pairwise_map.2 (h.imp fun hxy => .cons hxy)

/-- What is in one part comes before what is in the later ones. -/
theorem precedes_of_part_lt {i : Nat} {found later : List (List Nat × Members)}
    (hlater : ∀ position m, (position, m) ∈ later → ∃ j rest, position = j :: rest ∧ i < j) :
    ∀ x ∈ found.map (inPart i), ∀ y ∈ later, Precedes x y := by
  rintro ⟨position, m⟩ hx ⟨position', m'⟩ hy
  obtain ⟨rest, rfl, -⟩ := mem_map_inPart.1 hx
  obtain ⟨j, rest', rfl, hlt⟩ := hlater position' m' hy
  exact .rel hlt

mutual

/-- The nodes of a value are listed in the order of the document. -/
theorem pairwise_objects (value : Json) : (objects value).Pairwise Precedes := by
  match value with
  | .object members =>
      rw [objects]
      split
      · refine List.pairwise_cons.2 ⟨?_, pairwise_objectsOfFields members 0⟩
        rintro ⟨position, m⟩ hmem
        obtain ⟨j, -, -, rest, -, -, rfl, -⟩ := (mem_objectsOfFields members 0 position m).1 hmem
        exact .nil
      · exact List.Pairwise.nil
  | .array items =>
      rw [objects]
      exact pairwise_objectsOfItems items 0
  | .null | .bool _ | .number _ | .string _ =>
      simp [objects]

theorem pairwise_objectsOfItems (items : List Json) (i : Nat) :
    (objectsOfItems i items).Pairwise Precedes := by
  match items with
  | [] => exact List.Pairwise.nil
  | item :: others =>
      rw [objectsOfItems, List.pairwise_append]
      refine ⟨pairwise_map_inPart (pairwise_objects item),
        pairwise_objectsOfItems others (i + 1), precedes_of_part_lt fun position m hmem => ?_⟩
      obtain ⟨j, -, rest, -, rfl, -⟩ := (mem_objectsOfItems others (i + 1) position m).1 hmem
      exact ⟨_, rest, rfl, by omega⟩

theorem pairwise_objectsOfFields (fields : List (Text × Json)) (i : Nat) :
    (objectsOfFields i fields).Pairwise Precedes := by
  match fields with
  | [] => exact List.Pairwise.nil
  | (key, value) :: others =>
      have hlater : ∀ position m, (position, m) ∈ objectsOfFields (i + 1) others →
          ∃ j rest, position = j :: rest ∧ i < j := by
        intro position m hmem
        obtain ⟨j, -, -, rest, -, -, rfl, -⟩ :=
          (mem_objectsOfFields others (i + 1) position m).1 hmem
        exact ⟨_, rest, rfl, by omega⟩
      rw [objectsOfFields]
      split
      · exact pairwise_objectsOfFields others (i + 1)
      · exact List.pairwise_append.2 ⟨pairwise_map_inPart (pairwise_objects value),
          pairwise_objectsOfFields others (i + 1), precedes_of_part_lt hlater⟩

end

-- ==================================================================== spans

/-- Every span lies within the file. -/
def Fits (a : Arena) : Prop :=
  ∀ id, id < a.size →
    (a.span id).start ≤ (a.span id).stop ∧ (a.span id).stop ≤ a.source.length

/-- A span lies within the file, whatever the attributes say, if the start
that is handed down does. -/
theorem spanOf_fits {length fallback : Nat} (h : fallback ≤ length) (members : Members) :
    (spanOf length members fallback).start ≤ (spanOf length members fallback).stop
      ∧ (spanOf length members fallback).stop ≤ length := by
  have hstart : (spanOf length members fallback).start ≤ length := by
    unfold spanOf
    dsimp only
    split
    · split
      · exact Nat.min_le_right _ _
      · exact h
    · exact h
  unfold spanOf at hstart ⊢
  dsimp only at hstart ⊢
  cases attribute? members "endFilePos" with
  | none => exact ⟨Nat.le_refl _, hstart⟩
  | some position =>
      dsimp only
      by_cases hpos : 0 ≤ position
      · -- an end before the start counts as the start
        rw [if_pos hpos]
        exact ⟨Nat.le_max_right _ _, Nat.max_le.2 ⟨Nat.min_le_right _ _, hstart⟩⟩
      · rw [if_neg hpos]
        exact ⟨Nat.le_refl _, hstart⟩

-- ================================================================= lowering

/-- What the lowering needs to go on: an arena grown so far, a parent to add
to, and a start to hand down. -/
structure Ready (parent : Option Nat) (fallback : Nat) (a : Arena) : Prop where
  grown : Grown a
  fits : Fits a
  isOpen : ∀ p, parent = some p → p < a.size ∧ Open a p
  within : fallback ≤ a.source.length

/-- From one arena to another, the nodes of some objects were added at the end,
all of them below `parent`. -/
structure Lowers (parent : Option Nat) (found : List Members) (a b : Arena) : Prop where
  grown : Grown b
  fits : Fits b
  source : b.source = a.source
  below : ∀ x y, Below a x y → Below b x y
  opens : ∀ p q, parent = some p → Within a q p → Open a q → Open b q
  kinds : b.ids.map b.kind = a.ids.map a.kind ++ found.map fun m => kindOf (typeOf m) m

section Lowers

variable {parent : Option Nat} {fallback : Nat} {found more : List Members} {a b c : Arena}

/-- There is one node more for each object. -/
theorem Lowers.size (h : Lowers parent found a b) : b.size = a.size + found.length := by
  have hlength := congrArg List.length h.kinds
  simpa [Arena.ids] using hlength

/-- What was below a node stays below it. -/
theorem Lowers.within (h : Lowers parent found a b) {x y : Nat} (hxy : Within a x y) :
    Within b x y := by
  rcases hxy with rfl | hxy
  · exact .refl _ _
  · exact Or.inr (h.below x y hxy)

theorem Ready.lowersNothing (h : Ready parent fallback a) : Lowers parent [] a a where
  grown := h.grown
  fits := h.fits
  source := rfl
  below := fun _ _ hxy => hxy
  opens := fun _ _ _ _ hq => hq
  kinds := (List.append_nil _).symm

/-- Two parts can be lowered one after the other. -/
theorem Lowers.trans (hab : Lowers parent found a b) (hbc : Lowers parent more b c) :
    Lowers parent (found ++ more) a c where
  grown := hbc.grown
  fits := hbc.fits
  source := hbc.source.trans hab.source
  below := fun x y hxy => hbc.below x y (hab.below x y hxy)
  opens := fun p q hp hq hopen =>
    hbc.opens p q hp (hab.within hq) (hab.opens p q hp hq hopen)
  kinds := by rw [hbc.kinds, hab.kinds, List.append_assoc, List.map_append]

/-- The lowering can go on where it went on before. -/
theorem Lowers.ready (h : Lowers parent found a b) (hready : Ready parent fallback a) :
    Ready parent fallback b where
  grown := h.grown
  fits := h.fits
  isOpen := by
    intro p hp
    obtain ⟨hin, hopen⟩ := hready.isOpen p hp
    rw [h.size]
    exact ⟨by omega, h.opens p p hp (.refl a p) hopen⟩
  within := by
    rw [h.source]
    exact hready.within

end Lowers

section Push

variable {parent : Option Nat} {role : Text} {fallback : Nat} {members : Members} {a : Arena}

theorem size_pushNode : (pushNode a parent role fallback members).size = a.size + 1 :=
  Arena.size_push ..

theorem source_pushNode : (pushNode a parent role fallback members).source = a.source :=
  Arena.source_push

/-- One object, one node. -/
theorem lowers_pushNode (h : Ready parent fallback a) :
    Lowers parent [members] a (pushNode a parent role fallback members) where
  grown := .push h.grown parent h.isOpen ..
  fits := by
    intro id hid
    rw [size_pushNode] at hid
    rw [source_pushNode, pushNode, Arena.span_push]
    split
    · exact spanOf_fits h.within members
    · exact h.fits id (by omega)
  source := source_pushNode
  below := fun x y hxy => hxy.push fun p hp => (h.isOpen p hp).1
  opens := by
    rintro p q rfl hwithin hopen
    exact hopen.push (h.isOpen p rfl).1 hwithin
  kinds := by
    unfold Arena.ids
    rw [size_pushNode, List.range_succ, List.map_append]
    congr 1
    · refine List.map_congr_left fun id hid => ?_
      have hlt := List.mem_range.1 hid
      rw [pushNode, Arena.kind_push, if_neg (by omega)]
    · rw [List.map_singleton, List.map_singleton, pushNode, Arena.kind_push, if_pos rfl]

/-- The members of a node can be lowered once the node is there. -/
theorem ready_pushNode (h : Ready parent fallback a) :
    Ready (some a.size) (spanOf a.source.length members fallback).start
      (pushNode a parent role fallback members) where
  grown := (lowers_pushNode h).grown
  fits := (lowers_pushNode h).fits
  isOpen := by
    rintro p ⟨⟩
    rw [size_pushNode]
    exact ⟨by omega, Arena.open_push_size⟩
  within := by
    rw [source_pushNode]
    obtain ⟨hle, hin⟩ := spanOf_fits h.within members
    omega

/-- A node together with what is lowered below it. -/
theorem Lowers.node {found : List Members} {b : Arena} (h : Ready parent fallback a)
    (hbelow : Lowers (some a.size) found (pushNode a parent role fallback members) b) :
    Lowers parent (members :: found) a b where
  grown := hbelow.grown
  fits := hbelow.fits
  source := hbelow.source.trans source_pushNode
  below := fun x y hxy => hbelow.below x y ((lowers_pushNode h).below x y hxy)
  opens := by
    -- what was open around the parent is around the new node too
    rintro p q rfl hwithin hopen
    have hnew : Below (pushNode a (some p) role fallback members) p a.size :=
      Arena.below_push_size (h.isOpen p rfl).1
    exact hbelow.opens a.size q rfl (((lowers_pushNode h).within hwithin).trans (Or.inr hnew))
      ((lowers_pushNode h).opens p q rfl hwithin hopen)
  kinds := by
    rw [hbelow.kinds, (lowers_pushNode h).kinds, List.append_assoc]
    rfl

end Push

theorem map_snd_inPart (i : Nat) (found : List (List Nat × Members)) :
    (found.map (inPart i)).map Prod.snd = found.map Prod.snd := by
  rw [List.map_map]
  rfl

mutual

/-- Lowering a value adds its nodes, in order and below the parent. -/
theorem lowers_value (value : Json) (role : Text) {parent : Option Nat} {fallback : Nat}
    {a : Arena} (h : Ready parent fallback a) :
    Lowers parent ((objects value).map Prod.snd) a (lowerValue parent role fallback value a) := by
  match value with
  | .object members =>
      rw [objects, lowerValue]
      split
      · exact .node h (lowers_fields members 0 (ready_pushNode h))
      · exact h.lowersNothing
  | .array items =>
      rw [objects, lowerValue]
      exact lowers_items items role 0 h
  | .null | .bool _ | .number _ | .string _ =>
      rw [objects, lowerValue]
      · exact h.lowersNothing
      all_goals simp

theorem lowers_items (items : List Json) (role : Text) (i : Nat) {parent : Option Nat}
    {fallback : Nat} {a : Arena} (h : Ready parent fallback a) :
    Lowers parent ((objectsOfItems i items).map Prod.snd) a
      (lowerItems parent role fallback items a) := by
  match items with
  | [] => exact h.lowersNothing
  | item :: others =>
      have hfirst := lowers_value item role h
      rw [objectsOfItems, lowerItems, List.map_append, map_snd_inPart]
      exact hfirst.trans (lowers_items others role (i + 1) (hfirst.ready h))

theorem lowers_fields (fields : List (Text × Json)) (i : Nat) {id start : Nat} {a : Arena}
    (h : Ready (some id) start a) :
    Lowers (some id) ((objectsOfFields i fields).map Prod.snd) a
      (lowerFields id start fields a) := by
  match fields with
  | [] => exact h.lowersNothing
  | (key, value) :: others =>
      rw [objectsOfFields, lowerFields, List.map_append]
      split
      · exact lowers_fields others (i + 1) h
      · have hfirst := lowers_value value key h
        rw [map_snd_inPart]
        exact hfirst.trans (lowers_fields others (i + 1) (hfirst.ready h))

end

-- ================================================================ the arena

theorem ready_empty (source : Bytes) : Ready none 0 (Arena.empty source) where
  grown := .empty source
  fits := by
    intro id hid
    simp [Arena.empty, Arena.size] at hid
  isOpen := by
    intro p hp
    cases hp
  within := Nat.zero_le _

/-- A dump is lowered to an arena of its nodes. -/
theorem lowers_of_lowerJson {source : Bytes} {value : Json} {a : Arena}
    (h : lowerJson source value = .ok a) :
    Lowers none ((objects value).map Prod.snd) (Arena.empty source) a := by
  unfold lowerJson at h
  split at h
  · cases h
    exact lowers_value value _ (ready_empty source)
  · cases h

/-- The kind of a node is that of its object. -/
theorem kind_of_lowerJson {source : Bytes} {value : Json} {a : Arena}
    (h : lowerJson source value = .ok a) {id : Nat} {position : List Nat} {m : Members}
    (hid : (objects value)[id]? = some (position, m)) : a.kind id = kindOf (typeOf m) m := by
  have hkinds := (lowers_of_lowerJson h).kinds
  have hnone : (Arena.empty source).ids.map (Arena.empty source).kind = [] := rfl
  rw [hnone, List.nil_append, List.map_map] at hkinds
  have hat := congrArg (fun kinds => kinds[id]?) hkinds
  simp only [List.getElem?_map, hid, Option.map_some] at hat
  obtain ⟨n, hn, hkind⟩ := Option.map_eq_some_iff.1 hat
  obtain ⟨hlt, heq⟩ := List.getElem?_eq_some_iff.1 hn
  have hn : n = id := by
    rw [← heq]
    exact List.getElem_range _
  rw [← hn]
  exact hkind

/-- The arena of a dump is well formed: every span lies within the file, parents
have lower numbers than their children, the nodes are those of the objects
that are reached, one for each and in document order, and a walk enters them
in the order of their numbers. -/
theorem lower_wellFormed {source : Bytes} {value : Json} {a : Arena}
    (h : lowerJson source value = .ok a) :
    (∀ text, Json.ofText? text = some value → lower source text = .ok a)
    ∧ (∀ id, id < a.size →
        (a.span id).start ≤ (a.span id).stop ∧ (a.span id).stop ≤ source.length)
    ∧ (∀ id parent, a.parent? id = some parent → parent < id)
    ∧ (∃ found : List (List Nat × Members), found.length = a.size
        ∧ found.Pairwise Precedes
        ∧ (∀ position m, (position, m) ∈ found ↔ Reaches value position m)
        ∧ ∀ id position m, found[id]? = some (position, m) → a.kind id = kindOf (typeOf m) m)
    ∧ Arena.entered a.walk = List.range a.size := by
  have hlowers := lowers_of_lowerJson h
  have hbuilt := hlowers.grown.built
  refine ⟨fun text htext => ?_, fun id hid => ?_, fun id parent hparent => ?_,
    ⟨objects value, ?_, pairwise_objects value, mem_objects value, ?_⟩,
    Arena.entered_walk_eq_range hlowers.grown⟩
  · unfold lower
    rw [htext]
    exact h
  · have hfits := hlowers.fits id hid
    rw [hlowers.source] at hfits
    exact hfits
  · exact (hbuilt.linked.child parent id (hbuilt.placed.below id parent hparent)).2.1
  · rw [hlowers.size, List.length_map]
    exact (Nat.zero_add _).symm
  · intro id position m hid
    exact kind_of_lowerJson h hid

/-- A dump with a negative start and an end past the file, a start that is no
number, a type that is no string, an end before the start, and a node below
an object that is none. -/
def strayDump : Json :=
  .array
    [.object
      [("nodeType", .string "Expr_Include"),
        ("attributes", .object
          [("startFilePos", .number (.integer (-3))), ("endFilePos", .number (.integer 99))]),
        ("expr", .object
          [("attributes", .object [("startFilePos", .string "2")]),
            ("nodeType", .string "Scalar_String"), ("value", .string "a")])],
      .object [("stmts", .array [.object [("nodeType", .string "Arg")]])],
      .array
        [.object
          [("nodeType", .bool true),
            ("attributes", .object
              [("startFilePos", .number (.integer 5)), ("endFilePos", .number (.integer 1))])]]]

/-- The arena of that dump. -/
def strayArena : Arena :=
  lowerValue none "stmts" 0 strayDump (Arena.empty (Bytes.ofText "include;"))

theorem lower_wellFormed_strayDump :
    lowerJson (Bytes.ofText "include;") strayDump = .ok strayArena
    ∧ strayArena.ids.map strayArena.span = [⟨0, 8⟩, ⟨0, 0⟩, ⟨5, 5⟩]
    ∧ (∀ id parent, strayArena.parent? id = some parent → parent < id)
    ∧ (∃ found : List (List Nat × Members), found.length = 3
        ∧ found.Pairwise Precedes
        ∧ ∀ position m, (position, m) ∈ found ↔ Reaches strayDump position m)
    ∧ Arena.entered strayArena.walk = List.range 3 := by
  have hlowered : lowerJson (Bytes.ofText "include;") strayDump = .ok strayArena := rfl
  obtain ⟨-, -, hparents, ⟨found, hlength, horder, hreached, -⟩, hwalk⟩ :=
    lower_wellFormed hlowered
  exact ⟨hlowered, by decide +kernel, hparents, ⟨found, hlength, horder, hreached⟩, hwalk⟩

end ComponentPaths.Dump
