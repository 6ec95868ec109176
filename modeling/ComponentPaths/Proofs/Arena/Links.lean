/-
Links of an arena: children and parents.

An arena is `Built` when it is made the only way there is: from the bytes of
a file, node by node, each below a parent that is there already, with ends
of nodes moved at will. What every proof about walks needs of it is
`Linked`: a child names its parent, and has the higher number. Then no walk
ever meets the guards that keep it finite, so a walk is the plain recursion
over the children (`eventsFrom_eq`), an argument about a node can assume
what it proves for the children (`Linked.children_induction`), and whatever
a walk finds below a node has that node among its ancestors
(`mem_ancestors_of_below`).
-/
import ComponentPaths.Arena.Walk

namespace ComponentPaths.Arena

variable {a : Arena}

-- =============================================================== building

/-- Arenas as they are made. -/
inductive Built : Arena → Prop
  | empty (source : Bytes) : Built (Arena.empty source)
  | push {a : Arena} (built : Built a) (parent : Option Nat)
      (known : ∀ p, parent = some p → p < a.size) (role : Text) (kind : Kind) (span : Span)
      (startLine endLine : Nat) : Built (a.push parent role kind span startLine endLine)
  | setEnd {a : Arena} (built : Built a) (id stop endLine : Nat) :
      Built (a.setEnd id stop endLine)

section Step

variable {role : Text} {kind : Kind} {span : Span} {startLine endLine : Nat}

/-- A node at the top needs nothing. -/
theorem Built.top (built : Built a) :
    Built (a.push none role kind span startLine endLine) :=
  .push built none (fun _ h => by cases h) role kind span startLine endLine

/-- A node can be put below any node that is there. -/
theorem Built.under (built : Built a) {p : Nat} (hp : p < a.size) :
    Built (a.push (some p) role kind span startLine endLine) :=
  .push built (some p) (fun _ h => by cases h; exact hp) role kind span startLine endLine

end Step

/-- Children name their parent and have the higher number. Roots are nodes. -/
structure Linked (a : Arena) : Prop where
  child : ∀ p c, c ∈ a.children p → a.parent? c = some p ∧ p < c ∧ c < a.size
  root : ∀ r ∈ a.roots, r < a.size

-- ============================================================== one change

section Push

variable (parent : Option Nat) (role : Text) (kind : Kind) (span : Span)
  (startLine endLine : Nat)

/-- There is one node more. -/
theorem size_push : (a.push parent role kind span startLine endLine).size = a.size + 1 := by
  cases parent <;> simp [push, size]

/-- The node that is put in has the next number; of the others only the
parent changes, and only in its children. -/
theorem node?_push (id : Nat) :
    (a.push parent role kind span startLine endLine).node? id
      = if id = a.size then some ⟨kind, role, span, startLine, endLine, parent, []⟩
        else if parent = some id then (a.node? id).map (Node.adopt a.size)
        else a.node? id := by
  cases parent with
  | none =>
      simp only [push, node?, size, Array.getElem?_push]
      split <;> simp_all
  | some p =>
      simp only [push, node?, size, Array.getElem?_push, Array.size_modify,
        Array.getElem?_modify, Option.some.injEq]

/-- Only the node that is put in has a new parent. -/
theorem parent?_push (id : Nat) :
    (a.push parent role kind span startLine endLine).parent? id
      = if id = a.size then parent else a.parent? id := by
  unfold parent?
  rw [node?_push]
  split
  · rfl
  · split
    · cases a.node? id <;> rfl
    · rfl

/-- The parent has one more child, which comes last. -/
theorem children_push (hp : ∀ p, parent = some p → p < a.size) (id : Nat) :
    (a.push parent role kind span startLine endLine).children id
      = if parent = some id then a.children id ++ [a.size] else a.children id := by
  have hout : a.node? a.size = none := by simp [node?, size]
  unfold children
  rw [node?_push]
  by_cases hid : id = a.size
  · have hne : parent ≠ some id := fun h => by
      have := hp id h
      omega
    rw [if_pos hid, if_neg hne, hid, hout]
  · rw [if_neg hid]
    by_cases hparent : parent = some id
    · obtain ⟨n, hn⟩ : ∃ n, a.node? id = some n :=
        ⟨_, Array.getElem?_eq_getElem (hp id hparent)⟩
      rw [if_pos hparent, if_pos hparent, hn]
      rfl
    · rw [if_neg hparent, if_neg hparent]

/-- A node without a parent is the last of the roots. -/
theorem roots_push :
    (a.push parent role kind span startLine endLine).roots
      = if parent = none then a.roots ++ [a.size] else a.roots := by
  cases parent <;> rfl

end Push

/-- Moving an end leaves all other nodes as they are. -/
theorem node?_setEnd (id stop endLine other : Nat) :
    (a.setEnd id stop endLine).node? other
      = if id = other then (a.node? other).map fun n =>
          { n with span := { n.span with stop := stop }, endLine := endLine }
        else a.node? other := by
  simp only [setEnd, node?, Array.getElem?_modify]

/-- It leaves the parents as they are, too, -/
theorem parent?_setEnd (id stop endLine other : Nat) :
    (a.setEnd id stop endLine).parent? other = a.parent? other := by
  unfold parent?
  rw [node?_setEnd]
  split
  · cases a.node? other <;> rfl
  · rfl

/-- and the children, -/
theorem children_setEnd (id stop endLine other : Nat) :
    (a.setEnd id stop endLine).children other = a.children other := by
  unfold children
  rw [node?_setEnd]
  by_cases hid : id = other
  · rw [if_pos hid]
    cases a.node? other <;> rfl
  · rw [if_neg hid]

/-- and the number of nodes. -/
theorem size_setEnd (id stop endLine : Nat) : (a.setEnd id stop endLine).size = a.size := by
  simp [setEnd, size]

-- ================================================================= linked

/-- There is nothing to link before the first node. -/
theorem linked_empty (source : Bytes) : Linked (Arena.empty source) := by
  refine ⟨fun p c hc => ?_, fun r hr => ?_⟩
  · simp [children, node?, Arena.empty] at hc
  · simp [Arena.empty] at hr

/-- One more node is linked to the parent it is put under. -/
theorem Linked.push (h : Linked a) (parent : Option Nat)
    (hp : ∀ p, parent = some p → p < a.size) (role : Text) (kind : Kind) (span : Span)
    (startLine endLine : Nat) :
    Linked (a.push parent role kind span startLine endLine) := by
  -- a child that was there keeps its parent, since it is not the new node
  have hold : ∀ p c, c ∈ a.children p →
      (a.push parent role kind span startLine endLine).parent? c = some p
        ∧ p < c ∧ c < (a.push parent role kind span startLine endLine).size := by
    intro p c hc
    obtain ⟨hparent, hlt, hin⟩ := h.child p c hc
    rw [parent?_push, size_push, if_neg (by omega)]
    exact ⟨hparent, hlt, by omega⟩
  refine ⟨fun p c hc => ?_, fun r hr => ?_⟩
  · rw [children_push parent role kind span startLine endLine hp] at hc
    split at hc
    · rename_i hparent
      rcases List.mem_append.1 hc with hc | hc
      · exact hold p c hc
      · rw [List.mem_singleton] at hc
        subst hc
        rw [parent?_push, size_push, if_pos rfl]
        exact ⟨hparent, hp p hparent, by omega⟩
    · exact hold p c hc
  · rw [size_push]
    rw [roots_push] at hr
    split at hr
    · rcases List.mem_append.1 hr with hr | hr
      · have := h.root r hr
        omega
      · rw [List.mem_singleton] at hr
        omega
    · have := h.root r hr
      omega

/-- Moving an end changes no link. -/
theorem Linked.setEnd (h : Linked a) (id stop endLine : Nat) :
    Linked (a.setEnd id stop endLine) := by
  refine ⟨fun p c hc => ?_, fun r hr => ?_⟩
  · rw [children_setEnd] at hc
    rw [parent?_setEnd, size_setEnd]
    exact h.child p c hc
  · rw [size_setEnd]
    exact h.root r hr

/-- An arena is linked, however it was made. -/
theorem Built.linked (h : Built a) : Linked a := by
  induction h with
  | empty source => exact linked_empty source
  | push _ parent known role kind span startLine endLine ih =>
      exact ih.push parent known role kind span startLine endLine
  | setEnd _ id stop endLine ih => exact ih.setEnd id stop endLine

/-- An arena of at most `UInt32.size` nodes could store all its numbers in 32 bits: none
of them would be cut. -/
theorem Linked.toUInt32_exact (h : Linked a) (hsize : a.size ≤ UInt32.size) :
    (∀ r ∈ a.roots, r.toUInt32.toNat = r)
    ∧ ∀ p, ∀ c ∈ a.children p, p.toUInt32.toNat = p ∧ c.toUInt32.toNat = c := by
  have hexact : ∀ id < a.size, id.toUInt32.toNat = id := fun id hid =>
    UInt32.toNat_ofNat_of_lt (Nat.lt_of_lt_of_le hid hsize)
  refine ⟨fun r hr => hexact r (h.root r hr), fun p c hc => ?_⟩
  obtain ⟨-, hlt, hin⟩ := h.child p c hc
  exact ⟨hexact p (by omega), hexact c hin⟩

-- ================================================================== walks

/-- To prove something of every node, it is enough to prove it of a node
whose children have it. -/
theorem Linked.children_induction (h : Linked a) {motive : Nat → Prop}
    (step : ∀ id, (∀ c ∈ a.children id, motive c) → motive id) (id : Nat) : motive id := by
  -- numbers go up along children and stay below the size
  induction hn : a.size - id using Nat.strongRecOn generalizing id with
  | ind n ih =>
      refine step id fun c hc => ?_
      obtain ⟨-, hlt, hin⟩ := h.child id c hc
      exact ih (a.size - c) (by omega) c rfl

/-- A walk is the recursion over the children. -/
theorem eventsFrom_eq (h : Linked a) (id : Nat) :
    a.eventsFrom id
      = .enter id :: (a.children id).flatMap a.eventsFrom ++ [.leave id] := by
  rw [eventsFrom, List.flatMap_def, List.flatMap_def]
  congr 3
  refine List.map_congr_left fun c hc => ?_
  obtain ⟨-, hlt, hin⟩ := h.child id c hc
  rw [if_pos ⟨hlt, hin⟩]

/-- The node an event leaves. -/
def Event.left? : Event → Option Nat
  | .enter _ => none
  | .leave id => some id

/-- The nodes of a walk through a subtree, in the order of leaving. -/
def postorder (a : Arena) (id : Nat) : List Nat :=
  (a.eventsFrom id).filterMap Event.left?

/-- The children are left before the node itself. -/
theorem postorder_eq (h : Linked a) (id : Nat) :
    a.postorder id = (a.children id).flatMap a.postorder ++ [id] := by
  unfold postorder
  rw [eventsFrom_eq h, List.filterMap_append, List.filterMap_cons_none rfl,
    List.filterMap_flatMap]
  rfl

/-- A walk through a subtree leaves its top node. -/
theorem self_mem_postorder (h : Linked a) (id : Nat) : id ∈ a.postorder id := by
  rw [postorder_eq h]
  exact List.mem_append_right _ (List.mem_singleton.2 rfl)

-- ================================================================== below

/-- A node is strictly below another. -/
inductive Below (a : Arena) : Nat → Nat → Prop
  | child {id c : Nat} (h : c ∈ a.children id) : Below a id c
  | step {id c d : Nat} (h : c ∈ a.children id) (below : Below a c d) : Below a id d

/-- What is below a node has a higher number. -/
theorem Below.lt (h : Linked a) {id x : Nat} (hx : Below a id x) : id < x ∧ x < a.size := by
  induction hx with
  | child hc =>
      obtain ⟨-, hlt, hin⟩ := h.child _ _ hc
      exact ⟨hlt, hin⟩
  | step hc _ ih =>
      obtain ⟨-, hlt, -⟩ := h.child _ _ hc
      exact ⟨by omega, ih.2⟩

/-- A walk through a subtree leaves its top node and nodes below it. -/
theorem mem_postorder (h : Linked a) {id x : Nat} (hx : x ∈ a.postorder id) :
    x = id ∨ Below a id x := by
  induction id using h.children_induction generalizing x with
  | step id ih =>
      rw [postorder_eq h, List.mem_append] at hx
      rcases hx with hx | hx
      · obtain ⟨c, hc, hx⟩ := List.mem_flatMap.1 hx
        rcases ih c hc hx with rfl | hbelow
        · exact Or.inr (.child hc)
        · exact Or.inr (.step hc hbelow)
      · exact Or.inl (List.mem_singleton.1 hx)

/-- A walk through a node goes through its children. -/
theorem postorder_subset_of_child (h : Linked a) {id c : Nat} (hc : c ∈ a.children id) :
    a.postorder c ⊆ a.postorder id := by
  intro x hx
  rw [postorder_eq h id]
  exact List.mem_append_left _ (List.mem_flatMap.2 ⟨c, hc, hx⟩)

/-- A walk through a subtree leaves all that is below its top node. -/
theorem mem_postorder_of_below (h : Linked a) {id x : Nat} (hx : Below a id x) :
    x ∈ a.postorder id := by
  induction hx with
  | child hc => exact postorder_subset_of_child h hc (self_mem_postorder h _)
  | step hc _ ih => exact postorder_subset_of_child h hc ih

/-- The ancestors of a child start with its parent. -/
theorem ancestors_of_child (h : Linked a) {p c : Nat} (hc : c ∈ a.children p) :
    a.ancestors c = p :: a.ancestors p := by
  obtain ⟨hparent, hlt, -⟩ := h.child p c hc
  rw [ancestors]
  simp only [hparent, if_pos hlt]

/-- The ancestors of an ancestor are ancestors. -/
theorem ancestors_trans {x y z : Nat} (hxy : x ∈ a.ancestors y) (hyz : y ∈ a.ancestors z) :
    x ∈ a.ancestors z := by
  induction z using Nat.strongRecOn with
  | ind z ih =>
      rw [ancestors] at hyz ⊢
      cases hparent : a.parent? z with
      | none =>
          rw [hparent] at hyz
          cases hyz
      | some parent =>
          simp only [hparent] at hyz ⊢
          split at hyz
          · rename_i hlt
            rw [if_pos hlt]
            rcases List.mem_cons.1 hyz with rfl | hyz
            · exact List.mem_cons_of_mem _ hxy
            · exact List.mem_cons_of_mem _ (ih parent hlt hyz)
          · cases hyz

/-- A node is an ancestor of all that is below it. -/
theorem mem_ancestors_of_below (h : Linked a) {id x : Nat} (hx : Below a id x) :
    id ∈ a.ancestors x := by
  induction hx with
  | child hc =>
      rw [ancestors_of_child h hc]
      exact List.mem_cons_self
  | step hc _ ih =>
      refine ancestors_trans ?_ ih
      rw [ancestors_of_child h hc]
      exact List.mem_cons_self

end ComponentPaths.Arena
