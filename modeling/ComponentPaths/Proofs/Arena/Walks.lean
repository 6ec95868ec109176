/-
Where the nodes of an arena are, and the order in which a walk meets them.

An arena that is `Built` keeps every node in one place: a node without a
parent is a root, any other is a child of its parent, and no list has a node
twice (`Placed`). So a walk enters each node exactly once (`mem_entered_walk`,
`nodup_entered_walk`), to be a node's ancestor is to have it below
(`below_of_mem_ancestors`), and two nodes with a third below both of them lie
one in the other (`Within.chain`).

A walk enters nodes in one order and leaves them in another. For nodes none
of which lies below another the two orders are the same
(`filter_preorder`), since a walk is through with one before it comes to the
next.
-/
import ComponentPaths.Proofs.Arena.Links

namespace ComponentPaths.Arena

variable {a : Arena}

-- ================================================================= placed

/-- Every node has one place. -/
structure Placed (a : Arena) : Prop where
  top : ∀ id < a.size, a.parent? id = none → id ∈ a.roots
  below : ∀ id p, a.parent? id = some p → id ∈ a.children p
  root : ∀ r ∈ a.roots, a.parent? r = none
  roots : a.roots.Nodup
  children : ∀ p, (a.children p).Nodup

/-- Before the first node, there is nothing to place. -/
theorem placed_empty (source : Bytes) : Placed (Arena.empty source) := by
  refine ⟨fun id hid => ?_, fun id p hp => ?_, fun r hr => ?_, List.nodup_nil, fun p => ?_⟩
  · simp [Arena.empty, size] at hid
  · simp [Arena.empty, parent?, node?] at hp
  · simp [Arena.empty] at hr
  · simp [Arena.empty, Arena.children, node?]

/-- The next number is new in a list of numbers of nodes. -/
theorem nodup_concat_size {ids : List Nat} (h : ids.Nodup) (hlt : ∀ id ∈ ids, id < a.size) :
    (ids ++ [a.size]).Nodup := by
  rw [List.nodup_append]
  refine ⟨h, List.nodup_cons.2 ⟨List.not_mem_nil, List.nodup_nil⟩, ?_⟩
  intro id hid other hother heq
  rw [List.mem_singleton.1 hother] at heq
  have := hlt id hid
  omega

/-- A new node has its place under its parent, or among the roots. -/
theorem Placed.push (h : Placed a) (hl : Linked a) (parent : Option Nat)
    (hp : ∀ p, parent = some p → p < a.size) (role : Text) (kind : Kind) (span : Span)
    (startLine endLine : Nat) :
    Placed (a.push parent role kind span startLine endLine) := by
  refine ⟨fun id hid hnone => ?_, fun id p hparent => ?_, fun r hr => ?_, ?_, fun p => ?_⟩
  · rw [parent?_push] at hnone
    rw [size_push] at hid
    rw [roots_push]
    by_cases hnew : id = a.size
    · rw [if_pos hnew] at hnone
      rw [if_pos hnone, hnew]
      exact List.mem_append_right _ (List.mem_singleton.2 rfl)
    · rw [if_neg hnew] at hnone
      have hold := h.top id (by omega) hnone
      split
      · exact List.mem_append_left _ hold
      · exact hold
  · rw [parent?_push] at hparent
    rw [children_push parent role kind span startLine endLine hp]
    by_cases hnew : id = a.size
    · rw [if_pos hnew] at hparent
      rw [if_pos hparent, hnew]
      exact List.mem_append_right _ (List.mem_singleton.2 rfl)
    · rw [if_neg hnew] at hparent
      have hold := h.below id p hparent
      split
      · exact List.mem_append_left _ hold
      · exact hold
  · rw [roots_push] at hr
    rw [parent?_push]
    -- a root that was there is not the new node
    have hold : r ∈ a.roots → (if r = a.size then parent else a.parent? r) = none := by
      intro hr
      have := hl.root r hr
      rw [if_neg (by omega)]
      exact h.root r hr
    split at hr
    · rename_i hparent
      rcases List.mem_append.1 hr with hr | hr
      · exact hold hr
      · rw [if_pos (List.mem_singleton.1 hr)]
        exact hparent
    · exact hold hr
  · rw [roots_push]
    split
    · exact nodup_concat_size h.roots hl.root
    · exact h.roots
  · rw [children_push parent role kind span startLine endLine hp]
    split
    · exact nodup_concat_size (h.children p) fun c hc => (hl.child p c hc).2.2
    · exact h.children p

/-- Moving an end moves no node. -/
theorem Placed.setEnd (h : Placed a) (id stop endLine : Nat) :
    Placed (a.setEnd id stop endLine) := by
  refine ⟨fun x hx hnone => ?_, fun x p hparent => ?_, fun r hr => ?_, h.roots, fun p => ?_⟩
  · rw [size_setEnd] at hx
    rw [parent?_setEnd] at hnone
    exact h.top x hx hnone
  · rw [parent?_setEnd] at hparent
    rw [children_setEnd]
    exact h.below x p hparent
  · rw [parent?_setEnd]
    exact h.root r hr
  · rw [children_setEnd]
    exact h.children p

/-- An arena keeps each node in one place, however it was made. -/
theorem Built.placed (h : Built a) : Placed a := by
  induction h with
  | empty source => exact placed_empty source
  | push built parent known role kind span startLine endLine ih =>
      exact ih.push built.linked parent known role kind span startLine endLine
  | setEnd _ id stop endLine ih => exact ih.setEnd id stop endLine

-- ================================================================= within

/-- A node is another one or lies below it. -/
def Within (a : Arena) (top x : Nat) : Prop :=
  x = top ∨ Below a top x

theorem Within.refl (a : Arena) (x : Nat) : Within a x x :=
  Or.inl rfl

theorem Below.trans {x y z : Nat} (hxy : Below a x y) (hyz : Below a y z) : Below a x z := by
  induction hxy with
  | child hc => exact .step hc hyz
  | step hc _ ih => exact .step hc (ih hyz)

theorem Within.trans {x y z : Nat} (hxy : Within a x y) (hyz : Within a y z) :
    Within a x z := by
  rcases hyz with rfl | hyz
  · exact hxy
  · rcases hxy with rfl | hxy
    · exact Or.inr hyz
    · exact Or.inr (hxy.trans hyz)

/-- What is within a child is below its parent. -/
theorem Within.below_parent {id c x : Nat} (h : Within a c x) (hc : c ∈ a.children id) :
    Below a id x := by
  rcases h with rfl | h
  · exact .child hc
  · exact .step hc h

/-- What is below a node is a child of a node within it. -/
theorem Below.last {top x : Nat} (h : Below a top x) :
    ∃ p, x ∈ a.children p ∧ Within a top p := by
  induction h with
  | child hc => exact ⟨_, hc, .refl a _⟩
  | step hc _ ih =>
      obtain ⟨p, hp, hwithin⟩ := ih
      exact ⟨p, hp, Within.trans (Or.inr (.child hc)) hwithin⟩

/-- Of two nodes with a third within both, one is within the other. -/
theorem Within.chain (hl : Linked a) {c d x : Nat} (hc : Within a c x) (hd : Within a d x) :
    Within a c d ∨ Within a d c := by
  induction x using Nat.strongRecOn with
  | ind x ih =>
      rcases hc with rfl | hc
      · exact Or.inr hd
      · rcases hd with rfl | hd
        · exact Or.inl (Or.inr hc)
        · -- both ways down to `x` end in its parent
          obtain ⟨p, hp, hcp⟩ := hc.last
          obtain ⟨q, hq, hdq⟩ := hd.last
          obtain ⟨hparent, hlt, -⟩ := hl.child p x hp
          have hpq : p = q := by
            have := (hl.child q x hq).1
            rw [hparent] at this
            exact Option.some.inj this
          subst hpq
          exact ih p hlt hcp hdq

/-- A node is below each of its ancestors. -/
theorem below_of_mem_ancestors (hp : Placed a) {x y : Nat} (h : x ∈ a.ancestors y) :
    Below a x y := by
  induction y using Nat.strongRecOn with
  | ind y ih =>
      rw [ancestors] at h
      cases hparent : a.parent? y with
      | none =>
          rw [hparent] at h
          cases h
      | some p =>
          have hchild := hp.below y p hparent
          simp only [hparent] at h
          split at h
          · rename_i hlt
            rcases List.mem_cons.1 h with rfl | h
            · exact .child hchild
            · exact (ih p hlt h).trans (.child hchild)
          · cases h

-- ================================================================ preorder

/-- The nodes of a walk through a subtree, in the order of entering. -/
def preorder (a : Arena) (id : Nat) : List Nat :=
  entered (a.eventsFrom id)

/-- A node is entered before its children. -/
theorem preorder_eq (hl : Linked a) (id : Nat) :
    a.preorder id = id :: (a.children id).flatMap a.preorder := by
  have henter : Event.entered? (.enter id) = some id := rfl
  unfold preorder entered
  rw [eventsFrom_eq hl, List.cons_append, List.filterMap_cons_some henter,
    List.filterMap_append, List.filterMap_flatMap]
  exact congrArg _ (List.append_nil _)

/-- A walk enters the nodes root by root. -/
theorem entered_walk (a : Arena) : entered a.walk = a.roots.flatMap a.preorder := by
  unfold entered walk
  rw [List.filterMap_flatMap]
  rfl

/-- A walk through a node enters what is within it. -/
theorem mem_preorder (hl : Linked a) {id x : Nat} : x ∈ a.preorder id ↔ Within a id x := by
  induction id using hl.children_induction generalizing x with
  | step id ih =>
      rw [preorder_eq hl, List.mem_cons, List.mem_flatMap]
      constructor
      · rintro (rfl | ⟨c, hc, hx⟩)
        · exact .refl a x
        · exact Or.inr (((ih c hc).1 hx).below_parent hc)
      · rintro (rfl | hx)
        · exact Or.inl rfl
        · cases hx with
          | child hc => exact Or.inr ⟨x, hc, (ih x hc).2 (.refl a x)⟩
          | step hc hbelow => exact Or.inr ⟨_, hc, (ih _ hc).2 (Or.inr hbelow)⟩

theorem mem_descendants (hl : Linked a) {id x : Nat} : x ∈ a.descendants id ↔ Below a id x := by
  show x ∈ (a.preorder id).filter (· != id) ↔ _
  rw [List.mem_filter, mem_preorder hl, bne_iff_ne]
  constructor
  · rintro ⟨rfl | hbelow, hne⟩
    · exact absurd rfl hne
    · exact hbelow
  · intro hbelow
    have hlt := (hbelow.lt hl).1
    exact ⟨Or.inr hbelow, by omega⟩

/-- A node is within some root. -/
theorem exists_root_within (hp : Placed a) (hl : Linked a) {id : Nat} (hid : id < a.size) :
    ∃ r ∈ a.roots, Within a r id := by
  induction id using Nat.strongRecOn with
  | ind id ih =>
      cases hparent : a.parent? id with
      | none => exact ⟨id, hp.top id hid hparent, .refl a id⟩
      | some p =>
          have hchild := hp.below id p hparent
          obtain ⟨-, hlt, -⟩ := hl.child p id hchild
          obtain ⟨r, hr, hwithin⟩ := ih p hlt (by omega)
          exact ⟨r, hr, hwithin.trans (Or.inr (.child hchild))⟩

/-- A walk enters every node. -/
theorem mem_entered_walk (hp : Placed a) (hl : Linked a) {id : Nat} (hid : id < a.size) :
    id ∈ entered a.walk := by
  obtain ⟨r, hr, hwithin⟩ := exists_root_within hp hl hid
  rw [entered_walk]
  exact List.mem_flatMap.2 ⟨r, hr, (mem_preorder hl).2 hwithin⟩

/-- Walks through subtrees side by side enter no node twice. -/
theorem nodup_flatMap_preorder (hl : Linked a) {tops : List Nat} (htops : tops.Nodup)
    (hapart : ∀ c ∈ tops, ∀ d ∈ tops, ¬Below a c d)
    (heach : ∀ c ∈ tops, (a.preorder c).Nodup) : (tops.flatMap a.preorder).Nodup := by
  refine List.pairwise_flatMap.2 ⟨heach, htops.imp_of_mem fun {c d} hc hd hne x hx y hy => ?_⟩
  rintro rfl
  rcases ((mem_preorder hl).1 hx).chain hl ((mem_preorder hl).1 hy) with h | h
  · rcases h with rfl | h
    · exact hne rfl
    · exact hapart c hc d hd h
  · rcases h with rfl | h
    · exact hne rfl
    · exact hapart d hd c hc h

/-- No child of a node is below another one. -/
theorem not_below_sibling (hl : Linked a) {id c d : Nat} (hc : c ∈ a.children id)
    (hd : d ∈ a.children id) : ¬Below a c d := by
  intro hbelow
  obtain ⟨p, hp, hwithin⟩ := hbelow.last
  have hparent := (hl.child p d hp).1
  rw [(hl.child id d hd).1] at hparent
  cases hparent
  -- then the child would have its parent below it
  have hlt := (hl.child id c hc).2.1
  rcases hwithin with rfl | hb
  · omega
  · have := (hb.lt hl).1
    omega

/-- No node is entered twice. -/
theorem nodup_preorder (hp : Placed a) (hl : Linked a) (id : Nat) : (a.preorder id).Nodup := by
  induction id using hl.children_induction with
  | step id ih =>
      rw [preorder_eq hl, List.nodup_cons]
      constructor
      · intro hmem
        obtain ⟨c, hc, hmem⟩ := List.mem_flatMap.1 hmem
        have hlt := ((((mem_preorder hl).1 hmem).below_parent hc).lt hl).1
        omega
      · exact nodup_flatMap_preorder hl (hp.children id)
          (fun c hc d hd => not_below_sibling hl hc hd) ih

/-- A walk enters no node twice. -/
theorem nodup_entered_walk (hp : Placed a) (hl : Linked a) : (entered a.walk).Nodup := by
  rw [entered_walk]
  refine nodup_flatMap_preorder hl hp.roots (fun r _ s hs hbelow => ?_)
    fun r _ => nodup_preorder hp hl r
  obtain ⟨p, hchild, -⟩ := hbelow.last
  have hparent := (hl.child p s hchild).1
  rw [hp.root s hs] at hparent
  cases hparent

-- ==================================================================== order

/-- Nodes none of which lies below another are entered and left in one order. -/
theorem filter_preorder (hl : Linked a) {keep : Nat → Bool}
    (hapart : ∀ x y, keep x = true → keep y = true → ¬Below a x y) (id : Nat) :
    (a.preorder id).filter keep = (a.postorder id).filter keep := by
  induction id using hl.children_induction with
  | step id ih =>
      have hbelow : ((a.children id).flatMap a.preorder).filter keep
          = ((a.children id).flatMap a.postorder).filter keep := by
        rw [List.filter_flatMap, List.filter_flatMap, List.flatMap_def, List.flatMap_def]
        exact congrArg _ (List.map_congr_left ih)
      rw [preorder_eq hl, postorder_eq hl, List.filter_cons, List.filter_append, ← hbelow]
      by_cases hid : keep id = true
      · -- with a kept top, nothing below it is kept
        have hnil : ((a.children id).flatMap a.preorder).filter keep = [] := by
          rw [List.filter_eq_nil_iff]
          intro x hx hkeep
          obtain ⟨c, hc, hx⟩ := List.mem_flatMap.1 hx
          exact hapart id x hid hkeep (((mem_preorder hl).1 hx).below_parent hc)
        rw [hnil, if_pos hid, List.filter_cons_of_pos hid]
        rfl
      · rw [if_neg hid, List.filter_cons_of_neg hid]
        exact (List.append_nil _).symm

theorem filter_entered_walk (hl : Linked a) {keep : Nat → Bool}
    (hapart : ∀ x y, keep x = true → keep y = true → ¬Below a x y) :
    (entered a.walk).filter keep = (a.roots.flatMap a.postorder).filter keep := by
  rw [entered_walk, List.filter_flatMap, List.filter_flatMap, List.flatMap_def,
    List.flatMap_def]
  exact congrArg _ (List.map_congr_left fun r _ => filter_preorder hl hapart r)

end ComponentPaths.Arena
