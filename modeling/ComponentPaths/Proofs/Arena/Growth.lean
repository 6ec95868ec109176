/-
Arenas that grow depth first.

In any arena a child has a higher number than its parent, but a walk need
not meet the nodes in the order of their numbers: a child may be added to a
node that was left long ago. An arena is `Grown` when this never happens,
when a new node always goes under one that is still `Open`, where all that
came later is below it. Then the numbers are the order of the walk
(`entered_walk_eq_range`).

The invariant is that no subtree is interrupted. Whatever has a number
between that of a node and that of one of its children is below that node
(`Grown.between`): it holds for the new child because its parent is open, and
nothing that comes later takes it away. So subtrees are intervals
(`Grown.convex`), and of two siblings the first is done before the second
begins.
-/
import ComponentPaths.Proofs.Arena.Walks

namespace ComponentPaths.Arena

variable {a : Arena}

-- ================================================================= growing

/-- Everything that came after a node is below it. -/
def Open (a : Arena) (p : Nat) : Prop :=
  ∀ x, p < x → x < a.size → Below a p x

/-- Arenas in which every node was added under an open one, or at the top. -/
inductive Grown : Arena → Prop
  | empty (source : Bytes) : Grown (Arena.empty source)
  | push {a : Arena} (grown : Grown a) (parent : Option Nat)
      (isOpen : ∀ p, parent = some p → p < a.size ∧ Open a p) (role : Text) (kind : Kind)
      (span : Span) (startLine endLine : Nat) :
      Grown (a.push parent role kind span startLine endLine)

theorem Grown.built (h : Grown a) : Built a := by
  induction h with
  | empty source => exact .empty source
  | push _ parent isOpen role kind span startLine endLine ih =>
      exact .push ih parent (fun p hp => (isOpen p hp).1) role kind span startLine endLine

section Push

variable {parent : Option Nat} {role : Text} {kind : Kind} {span : Span}
  {startLine endLine : Nat}

/-- Nothing leaves its place when a node is added. -/
theorem Below.push {x y : Nat} (h : Below a x y)
    (hp : ∀ p, parent = some p → p < a.size) :
    Below (a.push parent role kind span startLine endLine) x y := by
  have hchild : ∀ {id c : Nat}, c ∈ a.children id →
      c ∈ (a.push parent role kind span startLine endLine).children id := by
    intro id c hc
    rw [children_push parent role kind span startLine endLine hp]
    split
    · exact List.mem_append_left _ hc
    · exact hc
  induction h with
  | child hc => exact .child (hchild hc)
  | step hc _ ih => exact .step (hchild hc) ih

/-- The node that is added is below its parent. -/
theorem below_push_size {p : Nat} (hp : p < a.size) :
    Below (a.push (some p) role kind span startLine endLine) p a.size := by
  refine .child ?_
  rw [children_push (some p) role kind span startLine endLine
    (fun q hq => by cases hq; exact hp), if_pos rfl]
  exact List.mem_append_right _ (List.mem_singleton.2 rfl)

theorem Within.push {x y : Nat} (h : Within a x y)
    (hp : ∀ p, parent = some p → p < a.size) :
    Within (a.push parent role kind span startLine endLine) x y := by
  rcases h with rfl | h
  · exact .refl _ _
  · exact Or.inr (h.push hp)

/-- A node stays open when one is added at or below it. -/
theorem Open.push {p q : Nat} (h : Open a q) (hp : p < a.size) (hwithin : Within a q p) :
    Open (a.push (some p) role kind span startLine endLine) q := by
  have hknown : ∀ r, some p = some r → r < a.size := by
    intro r hr
    cases hr
    exact hp
  intro x hlt hin
  rw [size_push] at hin
  by_cases hx : x = a.size
  · subst hx
    rcases hwithin.push hknown with rfl | hbelow
    · exact below_push_size hp
    · exact hbelow.trans (below_push_size hp)
  · exact (h x hlt (by omega)).push hknown

/-- The node that is added is open itself: nothing came after it. -/
theorem open_push_size : Open (a.push parent role kind span startLine endLine) a.size := by
  intro x hlt hin
  rw [size_push] at hin
  omega

theorem source_push : (a.push parent role kind span startLine endLine).source = a.source := by
  cases parent <;> rfl

/-- What is read of a node apart from its children stays as it was. -/
theorem map_node?_push {β : Type} (read : Node → β)
    (hread : ∀ child n, read (Node.adopt child n) = read n) (id : Nat) :
    ((a.push parent role kind span startLine endLine).node? id).map read
      = if id = a.size then some (read ⟨kind, role, span, startLine, endLine, parent, []⟩)
        else (a.node? id).map read := by
  rw [node?_push]
  by_cases hid : id = a.size
  · rw [if_pos hid, if_pos hid]
    rfl
  · rw [if_neg hid, if_neg hid]
    by_cases hparent : parent = some id
    · rw [if_pos hparent, Option.map_map]
      exact congrArg (fun f => Option.map f (a.node? id)) (funext (hread a.size))
    · rw [if_neg hparent]

theorem kind_push (id : Nat) :
    (a.push parent role kind span startLine endLine).kind id
      = if id = a.size then kind else a.kind id := by
  have hkind : ∀ b : Arena, b.kind id = ((b.node? id).map Node.kind).getD (.other []) := by
    intro b
    unfold Arena.kind
    cases b.node? id <;> rfl
  rw [hkind, hkind, map_node?_push Node.kind (fun _ _ => rfl)]
  split <;> rfl

theorem span_push (id : Nat) :
    (a.push parent role kind span startLine endLine).span id
      = if id = a.size then span else a.span id := by
  have hspan : ∀ b : Arena, b.span id = ((b.node? id).map Node.span).getD ⟨0, 0⟩ := by
    intro b
    unfold Arena.span
    cases b.node? id <;> rfl
  rw [hspan, hspan, map_node?_push Node.span (fun _ _ => rfl)]
  split <;> rfl

end Push

-- =============================================================== intervals

/-- Between a node and one of its children there is nothing but what is below
the node. -/
theorem Grown.between (h : Grown a) :
    ∀ p c, c ∈ a.children p → ∀ x, p < x → x < c → Below a p x := by
  induction h with
  | empty source =>
      intro p c hc
      simp [children, node?, Arena.empty] at hc
  | @push a _ parent isOpen role kind span startLine endLine ih =>
      have hknown : ∀ q, parent = some q → q < a.size := fun q hq => (isOpen q hq).1
      intro p c hc x hpx hxc
      rw [children_push parent role kind span startLine endLine hknown] at hc
      split at hc
      · rename_i hparent
        rcases List.mem_append.1 hc with hc | hc
        · exact (ih p c hc x hpx hxc).push hknown
        · -- the new child: its parent is open
          rw [List.mem_singleton] at hc
          subst hc
          exact ((isOpen p hparent).2 x hpx hxc).push hknown
      · exact (ih p c hc x hpx hxc).push hknown

/-- A subtree is an interval. -/
theorem Grown.convex (h : Grown a) {p x y : Nat} (hy : Below a p y) (hpx : p < x)
    (hxy : x < y) : Below a p x := by
  induction y using Nat.strongRecOn with
  | ind y ih =>
      have hl := h.built.linked
      obtain ⟨q, hq, hwithin⟩ := hy.last
      have hqy := (hl.child q y hq).2.1
      rcases Nat.lt_trichotomy x q with hxq | hxq | hxq
      · -- not yet at the parent of `y`, which is below `p` too
        rcases hwithin with rfl | hbelow
        · omega
        · exact ih q hqy hbelow hxq
      · rw [hxq]
        rcases hwithin with rfl | hbelow
        · omega
        · exact hbelow
      · have hbelow := h.between q y hq x hxq hxy
        rcases hwithin with rfl | hwithin
        · exact hbelow
        · exact hwithin.trans hbelow

/-- Children and roots stand in ascending order, since new ones come last. -/
theorem Built.ascending (h : Built a) :
    a.roots.Pairwise (· < ·) ∧ ∀ p, (a.children p).Pairwise (· < ·) := by
  have hconcat : ∀ {b : Arena} {ids : List Nat}, ids.Pairwise (· < ·) →
      (∀ id ∈ ids, id < b.size) → (ids ++ [b.size]).Pairwise (· < ·) := by
    intro b ids hids hlt
    rw [List.pairwise_append]
    refine ⟨hids, List.pairwise_singleton _ _, fun id hid other hother => ?_⟩
    rw [List.mem_singleton.1 hother]
    exact hlt id hid
  induction h with
  | empty source =>
      refine ⟨List.Pairwise.nil, fun p => ?_⟩
      simp [children, node?, Arena.empty]
  | @push a built parent known role kind span startLine endLine ih =>
      have hl := built.linked
      refine ⟨?_, fun p => ?_⟩
      · rw [roots_push]
        split
        · exact hconcat ih.1 hl.root
        · exact ih.1
      · rw [children_push parent role kind span startLine endLine known]
        split
        · exact hconcat (ih.2 p) fun c hc => (hl.child p c hc).2.2
        · exact ih.2 p
  | setEnd _ id stop endLine ih =>
      refine ⟨ih.1, fun p => ?_⟩
      rw [children_setEnd]
      exact ih.2 p

-- =============================================================== the order

/-- Subtrees side by side are walked in ascending order. -/
theorem Grown.pairwise_flatMap_preorder (h : Grown a) {tops : List Nat}
    (htops : tops.Pairwise (· < ·)) (hapart : ∀ c ∈ tops, ∀ d ∈ tops, ¬Below a c d)
    (heach : ∀ c ∈ tops, (a.preorder c).Pairwise (· < ·)) :
    (tops.flatMap a.preorder).Pairwise (· < ·) := by
  have hl := h.built.linked
  refine List.pairwise_flatMap.2 ⟨heach, htops.imp_of_mem fun {c d} hc hd hcd x hx y hy => ?_⟩
  rw [mem_preorder hl] at hx hy
  have hdy : d ≤ y := by
    rcases hy with rfl | hy
    · exact Nat.le_refl _
    · have := (hy.lt hl).1
      omega
  -- otherwise the second subtree would begin inside of the first
  refine Nat.lt_of_not_le fun hle => ?_
  have hcx : Below a c x := by
    rcases hx with rfl | hx
    · omega
    · exact hx
  refine hapart c hc d hd ?_
  rcases Nat.lt_or_ge d x with hdx | hdx
  · exact h.convex hcx hcd hdx
  · have hx' : d = x := by omega
    rw [hx']
    exact hcx

theorem Grown.pairwise_preorder (h : Grown a) (id : Nat) :
    (a.preorder id).Pairwise (· < ·) := by
  have hl := h.built.linked
  induction id using hl.children_induction with
  | step id ih =>
      rw [preorder_eq hl, List.pairwise_cons]
      constructor
      · intro x hx
        obtain ⟨c, hc, hx⟩ := List.mem_flatMap.1 hx
        exact ((((mem_preorder hl).1 hx).below_parent hc).lt hl).1
      · exact h.pairwise_flatMap_preorder (h.built.ascending.2 id)
          (fun c hc d hd => not_below_sibling hl hc hd) ih

/-- No root is below another node. -/
theorem not_below_root (hp : Placed a) (hl : Linked a) {x r : Nat} (hr : r ∈ a.roots) :
    ¬Below a x r := by
  intro hbelow
  obtain ⟨p, hchild, -⟩ := hbelow.last
  have hparent := (hl.child p r hchild).1
  rw [hp.root r hr] at hparent
  cases hparent

/-- A walk enters only nodes. -/
theorem lt_size_of_mem_walk (hl : Linked a) {x : Nat} (hx : x ∈ entered a.walk) :
    x < a.size := by
  rw [entered_walk] at hx
  obtain ⟨r, hr, hx⟩ := List.mem_flatMap.1 hx
  rcases (mem_preorder hl).1 hx with rfl | hbelow
  · exact hl.root _ hr
  · exact (hbelow.lt hl).2

/-- A walk over a grown arena enters the nodes in the order of their numbers. -/
theorem entered_walk_eq_range (h : Grown a) : entered a.walk = List.range a.size := by
  have hl := h.built.linked
  have hp := h.built.placed
  have hsorted : (entered a.walk).Pairwise (· < ·) := by
    rw [entered_walk]
    exact h.pairwise_flatMap_preorder h.built.ascending.1
      (fun r _ s hs => not_below_root hp hl hs) fun r _ => h.pairwise_preorder r
  -- both are ascending and have the same members
  have hperm : (entered a.walk).Perm (List.range a.size) := by
    rw [List.perm_ext_iff_of_nodup (nodup_entered_walk hp hl) List.nodup_range]
    intro x
    rw [List.mem_range]
    exact ⟨lt_size_of_mem_walk hl, mem_entered_walk hp hl⟩
  refine List.Perm.eq_of_pairwise (fun x y _ _ hxy hyx => ?_) hsorted
    List.pairwise_lt_range hperm
  omega

end ComponentPaths.Arena
