/-
A table of nodes that is filled by insertions is a tree.

What has to be known of the numbers is `IsTree`: a child has a higher number than
its parent, and to every node there is one way down and no other. So no two nodes
share a child, and no way leads back. A new node is reached on one way only, the
one that asked for it (`descend?_grow`), and so insertions keep all of this
(`IsTree.insert`).

Such a table stands for a tree (`treeAt`), and answers as that tree does, whatever
is asked: for a child, for a marker, for a directory. Ordered trees are determined
by what they answer, so an insertion into the table is the insertion into its tree
(`toTree_insert`). The numbers tell when a node was made, and nothing else.

The list of the marked directories is made with a stack. A node comes off the
stack before everything below it, and all that is below it comes off before what
was on the stack under it (`Lists`). Each node is looked at once, so the number of
nodes is enough of a limit (`markedDirs?_eq`).

So a table that is filled by insertions stands for their tree (`Simulates`), and
both are the map in which the last writer wins (`insertAll_lastWriterWins`).
-/
import ComponentPaths.Proofs.Tree.Grafting
import ComponentPaths.Tree.Table

namespace ComponentPaths

namespace NodeTable

open ComponentTree (Ascending alterChild splitDir)

variable {t : NodeTable} {id : Nat} {name : Text}

-- =============================================================== one change

theorem exists_node? (hid : id < t.size) : ∃ n, t.node? id = some n :=
  ⟨_, Array.getElem?_eq_getElem hid⟩

/-- The next number is not taken. -/
theorem node?_size (t : NodeTable) : t.node? t.size = none :=
  Array.getElem?_eq_none (Nat.le_refl _)

theorem marker?_size (t : NodeTable) : t.marker? t.size = none := by
  rw [marker?, node?_size]
  rfl

/-- The next number is not in use. -/
theorem children_size (t : NodeTable) : t.children t.size = [] := by
  rw [children, node?_size]

theorem child?_size (t : NodeTable) (name : Text) : t.child? t.size name = none := by
  rw [child?, children_size]
  rfl

/-- A new node has the next number. -/
theorem size_grow (t : NodeTable) (id : Nat) (name : Text) : (t.grow id name).size = t.size + 1 := by
  unfold grow size
  rw [Array.size_modify, Array.size_push]

/-- The node that is put in is bare; of the others only the one above it changes, and
only in its children. -/
theorem node?_grow (hid : id < t.size) (name : Text) (other : Nat) :
    (t.grow id name).node? other
      = if other = t.size then some .bare
        else if other = id then (t.node? other).map (TableNode.adopt name t.size)
        else t.node? other := by
  have hne : id ≠ t.size := Nat.ne_of_lt hid
  unfold node? grow
  simp only [Array.getElem?_modify, Array.getElem?_push]
  by_cases hnew : other = t.size
  · subst hnew
    rw [if_neg hne, if_pos rfl]
    exact if_pos rfl
  · have hold : other ≠ t.nodes.size := hnew
    rw [if_neg hold, if_neg hnew]
    simp only [eq_comm]

/-- A new node is a child of one node. All others keep their children, and the new
one has none. -/
theorem children_grow (hid : id < t.size) (other : Nat) :
    (t.grow id name).children other
      = if other = id then alterChild name (fun _ => t.size) (t.children id)
        else t.children other := by
  rw [children, node?_grow hid]
  by_cases hnew : other = t.size
  · have hother : other ≠ id := fun heq => Nat.lt_irrefl _ (hnew ▸ heq ▸ hid)
    rw [if_pos hnew, if_neg hother, hnew, children_size]
    rfl
  · rw [if_neg hnew]
    by_cases hother : other = id
    · subst hother
      obtain ⟨n, hn⟩ := exists_node? hid
      rw [if_pos rfl, if_pos rfl, children, hn]
      rfl
    · rw [if_neg hother, if_neg hother]
      rfl

/-- A new node has no marker, and the others keep theirs. -/
theorem marker?_grow (hid : id < t.size) (name : Text) (other : Nat) :
    (t.grow id name).marker? other = t.marker? other := by
  rw [marker?, node?_grow hid]
  by_cases hnew : other = t.size
  · rw [if_pos hnew, hnew, marker?_size]
    rfl
  · rw [if_neg hnew, marker?]
    split
    · cases t.node? other with
      | none => rfl
      | some n => rfl
    · rfl

/-- A new node is the child it was asked for, and no other. -/
theorem child?_grow (hid : id < t.size) (h : Ascending (t.children id)) (other : Nat)
    (segment : Text) :
    (t.grow id name).child? other segment
      = if other = id ∧ segment = name then some t.size else t.child? other segment := by
  unfold child?
  rw [children_grow hid]
  by_cases hother : other = id
  · subst hother
    rw [if_pos rfl]
    by_cases hname : segment = name
    · subst hname
      rw [if_pos ⟨rfl, rfl⟩, ComponentTree.lookup_alterChild_self h]
    · rw [if_neg (fun hboth => hname hboth.2), ComponentTree.lookup_alterChild_ne hname]
  · rw [if_neg hother, if_neg fun hboth => hother hboth.1]

theorem size_setMarker (t : NodeTable) (id : Nat) (marker : Marker) :
    (t.setMarker id marker).size = t.size := by
  unfold setMarker size
  exact Array.size_modify

/-- A marker changes nothing else about the nodes. -/
theorem node?_setMarker (t : NodeTable) (id : Nat) (marker : Marker) (other : Nat) :
    (t.setMarker id marker).node? other
      = if id = other then (t.node? other).map fun n => { n with marker := some marker }
        else t.node? other := by
  simp only [setMarker, node?, Array.getElem?_modify]

theorem children_setMarker (t : NodeTable) (id : Nat) (marker : Marker) (other : Nat) :
    (t.setMarker id marker).children other = t.children other := by
  unfold children
  rw [node?_setMarker]
  by_cases hid : id = other
  · rw [if_pos hid]
    cases t.node? other with
    | none => rfl
    | some n => rfl
  · rw [if_neg hid]

/-- A node has the marker that it was given. -/
theorem marker?_setMarker (hid : id < t.size) (marker : Marker) (other : Nat) :
    (t.setMarker id marker).marker? other
      = if other = id then some marker else t.marker? other := by
  rw [marker?, node?_setMarker]
  by_cases hother : other = id
  · subst hother
    obtain ⟨n, hn⟩ := exists_node? hid
    rw [if_pos rfl, if_pos rfl, hn]
    rfl
  · rw [if_neg (Ne.symm hother), if_neg hother]
    rfl

-- ================================================================ ways down

/-- A way down can be gone in two parts. -/
theorem descend?_append (t : NodeTable) (id : Nat) (front back : List Text) :
    t.descend? id (front ++ back) = (t.descend? id front).bind fun k => t.descend? k back := by
  induction front generalizing id with
  | nil => rfl
  | cons name front ih =>
      simp only [List.cons_append, descend?]
      cases t.child? id name with
      | none => rfl
      | some child => exact ih child

theorem descend?_concat (t : NodeTable) (id : Nat) (front : List Text) (name : Text) :
    t.descend? id (front ++ [name]) = (t.descend? id front).bind fun k => t.child? k name := by
  rw [descend?_append]
  simp only [descend?, Option.bind_fun_some]

/-- A way down depends on the children only. -/
theorem descend?_congr {u : NodeTable} (h : ∀ id, u.children id = t.children id) (id : Nat)
    (path : List Text) : u.descend? id path = t.descend? id path := by
  induction path generalizing id with
  | nil => rfl
  | cons name path ih => simp only [descend?, child?, h, ih]

/-- The start of a way down is a way down. -/
theorem isSome_descend?_of_prefix {front path : List Text} (h : front <+: path)
    (hpath : (t.descend? id path).isSome) : (t.descend? id front).isSome := by
  obtain ⟨back, rfl⟩ := h
  rw [descend?_append] at hpath
  cases hfront : t.descend? id front with
  | none =>
      rw [hfront] at hpath
      cases hpath
  | some k => rfl

/-- The marker of a directory, given by its segments. -/
def markerAt (t : NodeTable) (path : List Text) : Option Marker :=
  (t.descend? 0 path).bind t.marker?

/-- The numbers make a tree: links go from lower to higher numbers and have
names, and to every node there is exactly one way down from the top. -/
structure IsTree (t : NodeTable) : Prop where
  top : 0 < t.size
  linked : ∀ id, ∀ c ∈ t.children id, id < c.2 ∧ c.2 < t.size
  ascending : ∀ id, Ascending (t.children id)
  named : ∀ id, ∀ c ∈ t.children id, c.1 ≠ []
  reached : ∀ id < t.size, ∃ path, t.descend? 0 path = some id
  unique : ∀ path path' id, t.descend? 0 path = some id → t.descend? 0 path' = some id →
    path = path'

theorem IsTree.mem_of_child? (h : t.IsTree) {child : Nat} (hchild : t.child? id name = some child) :
    (name, child) ∈ t.children id :=
  (ComponentTree.lookup_eq_some_iff (h.ascending id)).1 hchild

/-- A way down starts with any of the children. -/
theorem IsTree.descend?_of_mem (h : t.IsTree) {c : Text × Nat} (hc : c ∈ t.children id)
    (path : List Text) : t.descend? id (c.1 :: path) = t.descend? c.2 path := by
  rw [descend?, child?, (ComponentTree.lookup_eq_some_iff (h.ascending id)).2 hc]
  rfl

/-- Every way ends at a node of the table. -/
theorem IsTree.lt_size (h : t.IsTree) (hid : id < t.size) {path : List Text} {last : Nat}
    (hpath : t.descend? id path = some last) : last < t.size := by
  induction path generalizing id with
  | nil =>
      cases hpath
      exact hid
  | cons name path ih =>
      obtain ⟨child, hchild, hrest⟩ := Option.bind_eq_some_iff.1 hpath
      exact ih (h.linked id _ (h.mem_of_child? hchild)).2 hrest

/-- A table with one node. -/
theorem isTree_empty : empty.IsTree := by
  have hnone : ∀ id, empty.children id = [] := by
    intro id
    cases id with
    | zero => rfl
    | succ id => rfl
  have hway : ∀ path id, empty.descend? 0 path = some id → path = [] ∧ id = 0 := by
    intro path id hpath
    cases path with
    | nil =>
        cases hpath
        exact ⟨rfl, rfl⟩
    | cons name path => cases hpath
  refine ⟨Nat.one_pos, fun id c hc => ?_, fun id => ?_, fun id c hc => ?_, fun id hid => ?_,
    fun path path' id hpath hpath' => ?_⟩
  · rw [hnone] at hc
    cases hc
  · rw [hnone]
    exact List.Pairwise.nil
  · rw [hnone] at hc
    cases hc
  · obtain rfl : id = 0 := Nat.lt_one_iff.1 hid
    exact ⟨[], rfl⟩
  · rw [(hway path id hpath).1, (hway path' id hpath').1]

/-- Two ways that go on from nodes are the same only from the same node. -/
theorem IsTree.concat_eq_iff (h : t.IsTree) {path front : List Text} {last : Nat}
    (hlast : t.descend? 0 path = some last) (hfront : t.descend? 0 front = some id)
    (segment name : Text) :
    path ++ [segment] = front ++ [name] ↔ last = id ∧ segment = name := by
  constructor
  · intro heq
    obtain ⟨hpaths, hnames⟩ := List.append_inj' heq rfl
    rw [hpaths, hfront] at hlast
    exact ⟨(Option.some.inj hlast).symm, (List.cons.inj hnames).1⟩
  · rintro ⟨rfl, rfl⟩
    rw [h.unique path front last hlast hfront]

/-- There is no way on to a child that a node does not have. -/
theorem descend?_concat_eq_none {front : List Text} (hfront : t.descend? 0 front = some id)
    (hnew : t.child? id name = none) : t.descend? 0 (front ++ [name]) = none := by
  rw [descend?_concat, hfront]
  exact hnew

/-- A new node is at the end of the one way that asked for it. All other ways lead
to where they led. -/
theorem IsTree.descend?_grow (h : t.IsTree) {front : List Text}
    (hfront : t.descend? 0 front = some id) (hnew : t.child? id name = none) (path : List Text) :
    (t.grow id name).descend? 0 path
      = if path = front ++ [name] then some t.size else t.descend? 0 path := by
  have hid : id < t.size := h.lt_size h.top hfront
  have hgrown : ∀ other segment, (t.grow id name).child? other segment
      = if other = id ∧ segment = name then some t.size else t.child? other segment :=
    child?_grow hid (h.ascending id)
  induction path using List.reverseRecOn with
  | nil =>
      rw [if_neg (by simp)]
      rfl
  | append_singleton path segment ih =>
      rw [descend?_concat, descend?_concat, ih]
      by_cases hpath : path = front ++ [name]
      · -- the new node has nothing below it
        subst hpath
        have hold := descend?_concat_eq_none hfront hnew
        rw [if_pos rfl, if_neg (by simp), hold]
        show (t.grow id name).child? t.size segment = none
        rw [hgrown, if_neg (fun hboth => Nat.lt_irrefl _ (hboth.1 ▸ hid)), child?_size]
      · rw [if_neg hpath]
        cases hlast : t.descend? 0 path with
        | none =>
            have hne : path ++ [segment] ≠ front ++ [name] := by
              intro heq
              rw [(List.append_inj' heq rfl).1, hfront] at hlast
              cases hlast
            rw [if_neg hne]
            rfl
        | some last =>
            show (t.grow id name).child? last segment = _
            rw [hgrown]
            have hsame := h.concat_eq_iff hlast hfront segment name
            by_cases hboth : last = id ∧ segment = name
            · rw [if_pos hboth, if_pos (hsame.2 hboth)]
            · rw [if_neg hboth, if_neg (mt hsame.1 hboth)]
              rfl

/-- Where the ways end: at the new node the one that asked for it, and at any other
node those that did before. -/
theorem IsTree.descend?_grow_eq_some_iff (h : t.IsTree) {front : List Text}
    (hfront : t.descend? 0 front = some id) (hnew : t.child? id name = none) (path : List Text)
    (last : Nat) :
    (t.grow id name).descend? 0 path = some last
      ↔ if last = t.size then path = front ++ [name] else t.descend? 0 path = some last := by
  rw [h.descend?_grow hfront hnew]
  by_cases hlast : last = t.size
  · have hout : t.descend? 0 path ≠ some last := by
      intro hpath
      exact Nat.ne_of_lt (h.lt_size h.top hpath) hlast
    rw [if_pos hlast]
    split
    · next hpath => exact iff_of_true (hlast ▸ rfl) hpath
    · next hpath => exact iff_of_false hout hpath
  · rw [if_neg hlast]
    split
    · next hpath =>
      rw [hpath, descend?_concat_eq_none hfront hnew]
      exact iff_of_false (fun heq => hlast (Option.some.inj heq).symm) nofun
    · exact Iff.rfl

/-- The links of a table with a new node: the old ones, and the one to the new node. -/
theorem mem_children_grow (hid : id < t.size) {other : Nat} {c : Text × Nat}
    (hc : c ∈ (t.grow id name).children other) :
    c ∈ t.children other ∨ other = id ∧ c = (name, t.size) := by
  rw [children_grow hid] at hc
  split at hc
  · next heq =>
    rcases ComponentTree.mem_alterChild hc with hc | ⟨hfirst, hsecond | ⟨-, -, hsecond⟩⟩
    · exact Or.inl (heq ▸ hc)
    · exact Or.inr ⟨heq, Prod.ext hfirst hsecond⟩
    · exact Or.inr ⟨heq, Prod.ext hfirst hsecond⟩
  · exact Or.inl hc

/-- A new node keeps the table a tree. -/
theorem IsTree.grow (h : t.IsTree) {front : List Text} (hfront : t.descend? 0 front = some id)
    (hnew : t.child? id name = none) (hname : name ≠ []) : (t.grow id name).IsTree := by
  have hid : id < t.size := h.lt_size h.top hfront
  have hends := h.descend?_grow_eq_some_iff hfront hnew
  refine ⟨?_, fun other c hc => ?_, fun other => ?_, fun other c hc => ?_, fun other hother => ?_,
    fun path path' last hpath hpath' => ?_⟩
  · rw [size_grow]
    exact Nat.succ_pos _
  · rw [size_grow]
    rcases mem_children_grow hid hc with hc | ⟨rfl, rfl⟩
    · have hlinked := h.linked other c hc
      omega
    · exact ⟨hid, Nat.lt_succ_self _⟩
  · rw [children_grow hid]
    split
    · exact ComponentTree.ascending_alterChild (h.ascending id) _
    · exact h.ascending other
  · rcases mem_children_grow hid hc with hc | ⟨-, rfl⟩
    · exact h.named other c hc
    · exact hname
  · rw [size_grow] at hother
    by_cases hlast : other = t.size
    · refine ⟨front ++ [name], ?_⟩
      rw [hends, if_pos hlast]
    · obtain ⟨path, hpath⟩ := h.reached other (by omega)
      refine ⟨path, ?_⟩
      rwa [hends, if_neg hlast]
  · rw [hends] at hpath hpath'
    by_cases hlast : last = t.size
    · rw [if_pos hlast] at hpath hpath'
      rw [hpath, hpath']
    · rw [if_neg hlast] at hpath hpath'
      exact h.unique path path' last hpath hpath'

-- =============================================================== insertions

/-- What going down to a directory leaves: a tree in which that way ends at a node, with
the nodes on the way and those that were there, and with the same markers. -/
structure Reaches (t : NodeTable) (path : List Text) (reached : NodeTable × Nat) : Prop where
  isTree : reached.1.IsTree
  ends : reached.1.descend? 0 path = some reached.2
  nodes : ∀ dir, (reached.1.descend? 0 dir).isSome ↔ (t.descend? 0 dir).isSome ∨ dir <+: path
  markers : ∀ dir, reached.1.markerAt dir = t.markerAt dir

/-- One step down. -/
theorem IsTree.enter (h : t.IsTree) {front : List Text} (hfront : t.descend? 0 front = some id)
    (hname : name ≠ []) : Reaches t (front ++ [name]) (t.enter id name) := by
  have hbefore : ∀ dir, dir <+: front → (t.descend? 0 dir).isSome := fun dir hdir =>
    isSome_descend?_of_prefix hdir (by rw [hfront]; rfl)
  unfold NodeTable.enter
  cases hchild : t.child? id name with
  | some child =>
      have hends : t.descend? 0 (front ++ [name]) = some child := by
        rw [descend?_concat, hfront]
        exact hchild
      refine ⟨h, hends, fun dir => ?_, fun dir => rfl⟩
      refine (or_iff_left_of_imp fun hdir => ?_).symm
      exact isSome_descend?_of_prefix hdir (by rw [hends]; rfl)
  | none =>
      have hways := h.descend?_grow hfront hchild
      refine ⟨h.grow hfront hchild hname, by rw [hways, if_pos rfl], fun dir => ?_, fun dir => ?_⟩
      · show ((t.grow id name).descend? 0 dir).isSome ↔ _
        rw [hways]
        split
        · next hdir => exact iff_of_true rfl (Or.inr (hdir ▸ List.prefix_rfl))
        · next hdir =>
          refine (or_iff_left_of_imp fun hprefix => ?_).symm
          rcases List.prefix_concat_iff.1 hprefix with heq | hprefix
          · exact absurd heq hdir
          · exact hbefore dir hprefix
      · show (t.grow id name).markerAt dir = t.markerAt dir
        have hmarker := marker?_grow (h.lt_size h.top hfront) name
        unfold markerAt
        rw [hways]
        split
        · next hdir =>
          have hnone : t.descend? 0 dir = none := hdir ▸ descend?_concat_eq_none hfront hchild
          rw [hnone, Option.bind_some, hmarker, marker?_size]
          rfl
        · cases t.descend? 0 dir with
          | none => rfl
          | some k => exact hmarker k

/-- A way down, step by step. -/
theorem IsTree.reach (h : t.IsTree) {front rest : List Text}
    (hfront : t.descend? 0 front = some id) (hrest : ∀ s ∈ rest, s ≠ []) :
    Reaches t (front ++ rest) (t.reach id rest) := by
  induction rest generalizing t id front with
  | nil =>
      rw [List.append_nil]
      refine ⟨h, hfront, fun dir => ?_, fun dir => rfl⟩
      have hsome : (t.descend? 0 front).isSome := by
        rw [hfront]
        rfl
      exact (or_iff_left_of_imp fun hdir => isSome_descend?_of_prefix hdir hsome).symm
  | cons name rest ih =>
      obtain ⟨hname, hrest⟩ := List.forall_mem_cons.1 hrest
      have hstep := h.enter hfront hname
      have hlater := ih hstep.isTree hstep.ends hrest
      rw [List.append_assoc, List.singleton_append] at hlater
      refine ⟨hlater.isTree, hlater.ends, fun dir => ?_, fun dir => ?_⟩
      · rw [NodeTable.reach, hlater.nodes, hstep.nodes, or_assoc]
        refine or_congr_right (or_iff_right_of_imp fun hdir => hdir.trans ?_)
        exact (List.prefix_append_right_inj front).2 (List.cons_prefix_cons.2 ⟨rfl, List.nil_prefix⟩)
      · rw [NodeTable.reach, hlater.markers, hstep.markers]

theorem ne_nil_of_mem_splitDir {dir s : Text} (h : s ∈ splitDir dir) : s ≠ [] := by
  rintro rfl
  exact absurd (List.mem_filter.1 h).2 (by decide)

/-- A marker leaves the numbers as they are. -/
theorem IsTree.setMarker (h : t.IsTree) (id : Nat) (marker : Marker) :
    (t.setMarker id marker).IsTree := by
  have hchildren := children_setMarker t id marker
  have hways := descend?_congr hchildren 0
  refine ⟨?_, fun other c hc => ?_, fun other => ?_, fun other c hc => ?_, fun other hother => ?_,
    fun path path' last hpath hpath' => ?_⟩
  · rw [size_setMarker]
    exact h.top
  · rw [hchildren] at hc
    rw [size_setMarker]
    exact h.linked other c hc
  · rw [hchildren]
    exact h.ascending other
  · rw [hchildren] at hc
    exact h.named other c hc
  · rw [size_setMarker] at hother
    simp only [hways]
    exact h.reached other hother
  · rw [hways] at hpath hpath'
    exact h.unique path path' last hpath hpath'

/-- An insertion keeps the table a tree, makes the nodes on the way to its directory
and no others, and changes the marker there and no other. -/
theorem IsTree.insert (h : t.IsTree) (dir : Text) (marker : Marker) :
    (t.insert dir marker).IsTree
    ∧ (∀ path, ((t.insert dir marker).descend? 0 path).isSome
        ↔ (t.descend? 0 path).isSome ∨ path <+: splitDir dir)
    ∧ ∀ path, (t.insert dir marker).markerAt path
        = if path = splitDir dir then some marker else t.markerAt path := by
  have hreach : Reaches t ([] ++ splitDir dir) (t.reach 0 (splitDir dir)) :=
    h.reach rfl fun s => ne_nil_of_mem_splitDir
  rw [List.nil_append] at hreach
  have hlast := hreach.isTree.lt_size hreach.isTree.top hreach.ends
  have hways := descend?_congr
    (children_setMarker (t.reach 0 (splitDir dir)).1 (t.reach 0 (splitDir dir)).2 marker) 0
  refine ⟨hreach.isTree.setMarker _ marker, fun path => ?_, fun path => ?_⟩
  · show ((NodeTable.setMarker _ _ _).descend? 0 path).isSome ↔ _
    rw [hways]
    exact hreach.nodes path
  · rw [← hreach.markers path]
    show (NodeTable.setMarker _ _ _).markerAt path = _
    unfold markerAt
    rw [hways]
    cases hpath : (t.reach 0 (splitDir dir)).1.descend? 0 path with
    | none =>
        have hne : path ≠ splitDir dir := by
          rintro rfl
          rw [hreach.ends] at hpath
          cases hpath
        rw [if_neg hne]
        rfl
    | some last =>
        rw [Option.bind_some, Option.bind_some, marker?_setMarker hlast]
        -- the marked node is that of one directory only
        have hsame : last = (t.reach 0 (splitDir dir)).2 ↔ path = splitDir dir := by
          constructor
          · rintro rfl
            exact hreach.isTree.unique _ _ _ hpath hreach.ends
          · rintro rfl
            rw [hreach.ends] at hpath
            exact (Option.some.inj hpath).symm
        simp only [hsame]

-- ================================================================ the tree

/-- The tree at a node. Links that do not lead to a higher number are not followed. -/
def treeAt (t : NodeTable) (id : Nat) : ComponentTree :=
  .node (t.marker? id)
    ((t.children id).map fun c =>
      (c.1, if id < c.2 ∧ c.2 < t.size then treeAt t c.2 else .empty))
termination_by t.size - id

/-- The tree of a table. -/
def toTree (t : NodeTable) : ComponentTree :=
  t.treeAt 0

/-- To prove something of every node, it is enough to prove it of a node whose
children have it. -/
theorem IsTree.children_induction (h : t.IsTree) {motive : Nat → Prop}
    (step : ∀ id, (∀ c ∈ t.children id, motive c.2) → motive id) (id : Nat) : motive id := by
  -- numbers go up along children and stay below the size
  induction hn : t.size - id using Nat.strongRecOn generalizing id with
  | ind n ih =>
      refine step id fun c hc => ?_
      have hlinked := h.linked id c hc
      exact ih (t.size - c.2) (by omega) c.2 rfl

/-- The tree at a node has the trees of its children. -/
theorem IsTree.treeAt_eq (h : t.IsTree) (id : Nat) :
    t.treeAt id = .node (t.marker? id) ((t.children id).map fun c => (c.1, t.treeAt c.2)) := by
  rw [treeAt]
  congr 1
  refine List.map_congr_left fun c hc => ?_
  rw [if_pos (h.linked id c hc)]

/-- The tree at a node has its marker, -/
theorem IsTree.marker?_treeAt (h : t.IsTree) (id : Nat) :
    (t.treeAt id).marker? = t.marker? id := by
  rw [h.treeAt_eq]
  rfl

/-- the trees at its children, in their order, -/
theorem IsTree.children_treeAt (h : t.IsTree) (id : Nat) :
    (t.treeAt id).children = (t.children id).map fun c => (c.1, t.treeAt c.2) := by
  rw [h.treeAt_eq]
  rfl

theorem lookup_map_snd {α β : Type} (f : α → β) (children : List (Text × α)) (name : Text) :
    (children.map fun c => (c.1, f c.2)).lookup name = (children.lookup name).map f := by
  induction children with
  | nil => rfl
  | cons c children ih =>
      rw [List.map_cons, List.lookup_cons, List.lookup_cons]
      cases name == c.1 with
      | true => rfl
      | false => exact ih

/-- the same child of each name, -/
theorem IsTree.child?_treeAt (h : t.IsTree) (id : Nat) (name : Text) :
    (t.treeAt id).child? name = (t.child? id name).map t.treeAt := by
  rw [ComponentTree.child?, h.children_treeAt, lookup_map_snd]
  rfl

/-- and the same types among the children. -/
theorem IsTree.pluginTypeChildren_treeAt (h : t.IsTree) (id : Nat) :
    (t.treeAt id).pluginTypeChildren = t.pluginTypeChildren id := by
  rw [ComponentTree.pluginTypeChildren, h.children_treeAt, List.countP_map]
  refine List.countP_congr fun c _ => ?_
  rw [Function.comp_apply, h.marker?_treeAt]

/-- A way down the tree is a way down the table. -/
theorem IsTree.descend?_treeAt (h : t.IsTree) (id : Nat) (path : List Text) :
    ComponentTree.descend? path (t.treeAt id) = (t.descend? id path).map t.treeAt := by
  induction path generalizing id with
  | nil => rfl
  | cons name path ih =>
      rw [ComponentTree.descend?, h.child?_treeAt, descend?]
      cases t.child? id name with
      | none => rfl
      | some child => exact ih child

/-- A table and its tree are marked alike. -/
theorem IsTree.markerAt_toTree (h : t.IsTree) (path : List Text) :
    t.toTree.markerAt path = t.markerAt path := by
  unfold ComponentTree.markerAt markerAt toTree
  rw [h.descend?_treeAt]
  cases t.descend? 0 path with
  | none => rfl
  | some last => exact h.marker?_treeAt last

/-- The children of a table are in order, and so are those of its tree. -/
theorem IsTree.ordered_treeAt (h : t.IsTree) (id : Nat) : (t.treeAt id).Ordered := by
  induction id using h.children_induction with
  | step id ih =>
      rw [h.treeAt_eq]
      refine .node ?_ fun c hc => ?_
      · exact List.pairwise_map.2 (h.ascending id)
      · obtain ⟨child, hchild, rfl⟩ := List.mem_map.1 hc
        exact ih child hchild

/-- An insertion into a table is the insertion into its tree. -/
theorem IsTree.toTree_insert (h : t.IsTree) (dir : Text) (marker : Marker) :
    (t.insert dir marker).toTree = t.toTree.insert dir marker := by
  obtain ⟨htree, hnodes, hmarkers⟩ := h.insert dir marker
  have hordered : t.toTree.Ordered := h.ordered_treeAt 0
  refine ComponentTree.eq_of_markerAt (htree.ordered_treeAt 0)
    (ComponentTree.ordered_mark hordered _ _) (fun path => ?_) fun path => ?_
  · rw [ComponentTree.insert, ComponentTree.isSome_descend?_mark hordered, toTree, toTree,
      htree.descend?_treeAt, h.descend?_treeAt, Option.isSome_map, Option.isSome_map]
    exact hnodes path
  · rw [ComponentTree.insert, ComponentTree.markerAt_mark hordered, h.markerAt_toTree, ← hmarkers]
    exact htree.markerAt_toTree path

-- ================================================================== listing

/-- The children come off the stack in their order. -/
theorem pushChildren_eq (t : NodeTable) (id : Nat) (dir : Text) (stack : List (Nat × Text)) :
    t.pushChildren id dir stack
      = ((t.children id).map fun c => (c.2, childDir dir c.1)) ++ stack := by
  unfold pushChildren
  rw [List.foldl_reverse]
  induction t.children id with
  | nil => rfl
  | cons c children ih =>
      rw [List.foldr_cons, ih]
      rfl

/-- The node of a number and all nodes below it, in the order in which they are looked
at. -/
def below (t : NodeTable) (id : Nat) : List Nat :=
  id :: (t.children id).flatMap fun c => if id < c.2 ∧ c.2 < t.size then below t c.2 else []
termination_by t.size - id

/-- What is below a node are the node and what is below its children. -/
theorem IsTree.below_eq (h : t.IsTree) (id : Nat) :
    t.below id = id :: (t.children id).flatMap fun c => t.below c.2 := by
  rw [below, List.flatMap_def, List.flatMap_def]
  congr 2
  refine List.map_congr_left fun c hc => ?_
  rw [if_pos (h.linked id c hc)]

/-- What is below a node is at the end of a way down from it. -/
theorem IsTree.mem_below (h : t.IsTree) {last : Nat} :
    last ∈ t.below id ↔ ∃ path, t.descend? id path = some last := by
  induction id using h.children_induction with
  | step id ih =>
      rw [h.below_eq, List.mem_cons, List.mem_flatMap]
      constructor
      · rintro (rfl | ⟨c, hc, hlast⟩)
        · exact ⟨[], rfl⟩
        · obtain ⟨path, hpath⟩ := (ih c hc).1 hlast
          exact ⟨c.1 :: path, by rw [h.descend?_of_mem hc, hpath]⟩
      · rintro ⟨path, hpath⟩
        cases path with
        | nil =>
            cases hpath
            exact Or.inl rfl
        | cons name path =>
            obtain ⟨child, hchild, hrest⟩ := Option.bind_eq_some_iff.1 hpath
            have hmem := h.mem_of_child? hchild
            exact Or.inr ⟨(name, child), hmem, (ih _ hmem).2 ⟨path, hrest⟩⟩

/-- No node is below two children of a node, or below itself. -/
theorem IsTree.nodup_below (h : t.IsTree) (hid : id < t.size) : (t.below id).Nodup := by
  induction id using h.children_induction with
  | step id ih =>
      obtain ⟨front, hfront⟩ := h.reached id hid
      -- the way to a node below a child leads through that child
      have hway : ∀ c ∈ t.children id, ∀ last ∈ t.below c.2,
          ∃ path, t.descend? 0 (front ++ c.1 :: path) = some last := by
        intro c hc last hlast
        obtain ⟨path, hpath⟩ := h.mem_below.1 hlast
        exact ⟨path, by rw [descend?_append, hfront, Option.bind_some, h.descend?_of_mem hc, hpath]⟩
      rw [h.below_eq, List.nodup_cons, List.nodup_flatMap]
      refine ⟨fun hself => ?_, fun c hc => ih c hc (h.linked id c hc).2, ?_⟩
      · obtain ⟨c, hc, hself⟩ := List.mem_flatMap.1 hself
        obtain ⟨path, hpath⟩ := hway c hc id hself
        have heq := h.unique _ _ _ hpath hfront
        simp at heq
      · refine (h.ascending id).imp_of_mem fun hc hc' hbefore => ?_
        intro last hlast hlast'
        obtain ⟨path, hpath⟩ := hway _ hc last hlast
        obtain ⟨path', hpath'⟩ := hway _ hc' last hlast'
        have heq := List.append_cancel_left (h.unique _ _ _ hpath hpath')
        exact hbefore.2 (List.cons.inj heq).1

/-- All nodes are below the topmost one, each of them once. -/
theorem IsTree.length_below (h : t.IsTree) : (t.below 0).length = t.size := by
  have hperm : (t.below 0).Perm (List.range t.size) := by
    refine (List.perm_ext_iff_of_nodup (h.nodup_below h.top) List.nodup_range).2 fun last => ?_
    rw [h.mem_below, List.mem_range]
    exact ⟨fun ⟨path, hpath⟩ => h.lt_size h.top hpath, h.reached last⟩
  rw [hperm.length_eq, List.length_range]

/-- The stack has the paths of its nodes. -/
theorem childDir_joinSlash {path : List Text} (hpath : ∀ s ∈ path, s ≠ []) (name : Text) :
    childDir (Text.joinSlash path) name = Text.joinSlash (path ++ [name]) := by
  unfold childDir
  cases path with
  | nil =>
      rw [List.nil_append, Text.joinSlash_singleton, Text.joinSlash_nil]
      rfl
  | cons first path =>
      have hne : Text.joinSlash (first :: path) ≠ [] := fun hnil =>
        List.cons_ne_nil first path (Text.eq_nil_of_joinSlash hpath hnil)
      rw [if_neg (by simpa using hne),
        Text.joinSlash_append (List.cons_ne_nil first path) (List.cons_ne_nil name []),
        Text.joinSlash_singleton]

/-- A marked directory, as it is listed. -/
def listed (entry : List Text × Marker) : Text × Marker :=
  (Text.joinSlash entry.1, entry.2)

/-- From a node on the stack the marked directories of its tree are listed, with one
look at each node of it. After that the rest of the stack comes next. -/
def Lists (t : NodeTable) (id : Nat) : Prop :=
  ∀ path : List Text, (∀ s ∈ path, s ≠ []) → ∀ (limit : Nat) (stack : List (Nat × Text)),
    t.listFrom? ((t.below id).length + limit) ((id, Text.joinSlash path) :: stack)
      = (t.listFrom? limit stack).map fun rest =>
          (ComponentTree.markedFrom path (t.treeAt id)).map listed ++ rest

/-- Children come off the stack one after the other, each with all that is below it. -/
theorem listFrom?_children {path : List Text} (hpath : ∀ s ∈ path, s ≠ [])
    (children : List (Text × Nat)) (hnamed : ∀ c ∈ children, c.1 ≠ [])
    (hlists : ∀ c ∈ children, t.Lists c.2) (limit : Nat) (stack : List (Nat × Text)) :
    t.listFrom? ((children.flatMap fun c => t.below c.2).length + limit)
        ((children.map fun c => (c.2, childDir (Text.joinSlash path) c.1)) ++ stack)
      = (t.listFrom? limit stack).map fun rest =>
          (ComponentTree.markedBelow path
            (children.map fun c => (c.1, t.treeAt c.2))).map listed ++ rest := by
  induction children with
  | nil =>
      rw [List.flatMap_nil, List.length_nil, Nat.zero_add]
      exact (Option.map_id' ..).symm
  | cons c children ih =>
      obtain ⟨hname, hnamed⟩ := List.forall_mem_cons.1 hnamed
      obtain ⟨hlist, hlists⟩ := List.forall_mem_cons.1 hlists
      have hlonger : ∀ s ∈ path ++ [c.1], s ≠ [] := by
        intro s hs
        rcases List.mem_append.1 hs with hs | hs
        · exact hpath s hs
        · rw [List.mem_singleton.1 hs]
          exact hname
      rw [List.flatMap_cons, List.length_append, Nat.add_assoc, List.map_cons, List.cons_append,
        childDir_joinSlash hpath, hlist _ hlonger, ih hnamed hlists, Option.map_map,
        List.map_cons, ComponentTree.markedBelow, List.map_append]
      refine congrArg (fun f => Option.map f _) (funext fun rest => ?_)
      exact (List.append_assoc _ _ _).symm

/-- Every node is listed in this way. -/
theorem IsTree.lists (h : t.IsTree) (id : Nat) : t.Lists id := by
  induction id using h.children_induction with
  | step id ih =>
      intro path hpath limit stack
      rw [h.below_eq, List.length_cons, Nat.add_right_comm, listFrom?, pushChildren_eq,
        listFrom?_children hpath _ (h.named id) ih, Option.map_map, h.treeAt_eq,
        ComponentTree.markedFrom, List.map_append, List.map_map]
      refine congrArg (fun f => Option.map f _) (funext fun rest => ?_)
      exact (List.append_assoc _ _ _).symm

/-- A table lists the marked directories of its tree, in their order. -/
theorem IsTree.markedDirs?_eq (h : t.IsTree) : t.markedDirs? = some t.toTree.markedDirs := by
  have hlist := h.lists 0 [] (List.forall_mem_nil _) 0 []
  rw [Nat.add_zero, h.length_below] at hlist
  unfold markedDirs?
  rw [← Text.joinSlash_nil, hlist, listFrom?, Option.map_some, List.append_nil]
  rfl

-- =============================================================== simulation

/-- The table of a sequence of insertions. -/
def insertAll (entries : List (Text × Marker)) : NodeTable :=
  entries.foldl (fun t entry => t.insert entry.1 entry.2) empty

/-- Insertions fill a table as they fill a tree. -/
theorem insertAll_toTree (entries : List (Text × Marker)) :
    (insertAll entries).IsTree
    ∧ (insertAll entries).toTree = ComponentTree.insertAll entries := by
  induction entries using List.reverseRecOn with
  | nil =>
      refine ⟨isTree_empty, ?_⟩
      show empty.toTree = ComponentTree.empty
      rw [toTree, isTree_empty.treeAt_eq]
      rfl
  | append_singleton entries entry ih =>
      obtain ⟨htree, heq⟩ := ih
      have hconcat : insertAll (entries ++ [entry]) = (insertAll entries).insert entry.1 entry.2 :=
        List.foldl_concat ..
      rw [hconcat, htree.toTree_insert, heq]
      exact ⟨(htree.insert _ _).1, (ComponentTree.insertInto_concat _ entries entry).symm⟩

/-- A table stands for a tree: its numbers make one, every node answers as the tree at
that node does, and the list of the marked directories is that of the tree. -/
structure Simulates (t : NodeTable) (tree : ComponentTree) : Prop where
  /-- To each node there is one way from the top, and no other. -/
  reached : ∀ id < t.size, ∃ path, t.descend? 0 path = some id
    ∧ ∀ path', t.descend? 0 path' = some id → path' = path
  lookup : ∀ dir, tree.lookup? dir = (t.lookup? dir).map t.treeAt
  marker : ∀ id, (t.treeAt id).marker? = t.marker? id
  child : ∀ id name, (t.treeAt id).child? name = (t.child? id name).map t.treeAt
  types : ∀ id, (t.treeAt id).pluginTypeChildren = t.pluginTypeChildren id
  /-- The stack runs empty, and what came off it is in the order of the tree. -/
  listed : t.markedDirs? = some tree.markedDirs

/-- A table whose numbers make a tree stands for that tree. -/
theorem IsTree.simulates (h : t.IsTree) : t.Simulates t.toTree where
  reached id hid := by
    obtain ⟨path, hpath⟩ := h.reached id hid
    exact ⟨path, hpath, fun path' hpath' => h.unique path' path id hpath' hpath⟩
  lookup dir := h.descend?_treeAt 0 (splitDir dir)
  marker := h.marker?_treeAt
  child := h.child?_treeAt
  types := h.pluginTypeChildren_treeAt
  listed := h.markedDirs?_eq

/-- The table of a sequence of insertions stands for their tree. -/
theorem simulates_insertAll (entries : List (Text × Marker)) :
    (insertAll entries).Simulates (ComponentTree.insertAll entries) := by
  obtain ⟨htree, heq⟩ := insertAll_toTree entries
  rw [← heq]
  exact htree.simulates

/-- For every tree of manifests there is a table that is filled by insertions. -/
theorem exists_simulates_ofManifests (primary : Manifest) (plugins : List PluginManifest) :
    ∃ entries, (insertAll entries).Simulates (ComponentTree.ofManifests primary plugins) := by
  obtain ⟨entries, heq⟩ := TreeBuilder.exists_insertAll primary plugins
  exact ⟨_, heq ▸ simulates_insertAll _⟩

end NodeTable

-- ========================================================= last writer wins

namespace ComponentTree

/-- A tree answers as the map of its insertions: a directory is there if an
insertion leads to it or through it, and has the marker that was put there
last. The marked directories are the entries of that map, each of them once,
in lexicographic order of the segments. The table of the insertions stands for
the tree, and so answers in the same way. -/
theorem insertAll_lastWriterWins (entries : List (Text × Marker)) :
    (∀ dir : Text,
      (((insertAll entries).lookup? dir).isSome
        ↔ splitDir dir = [] ∨ ∃ entry ∈ entries, splitDir dir <+: splitDir entry.1)
      ∧ ((insertAll entries).lookup? dir).bind marker? = lastMarker? entries (splitDir dir))
    ∧ (∃ nodes : List (List Text × Marker),
      (insertAll entries).markedDirs = nodes.map (fun n => (Text.joinSlash n.1, n.2))
      ∧ nodes.Pairwise (fun x y => PathBefore x.1 y.1)
      ∧ ∀ path marker, (path, marker) ∈ nodes ↔ lastMarker? entries path = some marker)
    ∧ (NodeTable.insertAll entries).Simulates (insertAll entries) := by
  refine ⟨fun dir => ⟨?_, ?_⟩, ⟨(insertAll entries).marked, rfl, ?_, fun path marker => ?_⟩,
    NodeTable.simulates_insertAll entries⟩
  · exact isSome_descend?_insertAll entries (splitDir dir)
  · exact markerAt_insertAll entries (splitDir dir)
  · exact pairwise_markedFrom (insertAll entries) (ordered_insertAll entries) []
  · rw [mem_marked (ordered_insertAll entries), markerAt_insertAll]

end ComponentTree

end ComponentPaths
