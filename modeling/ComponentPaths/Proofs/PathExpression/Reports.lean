/-
What the walk over a file reports.

The walk keeps contributions in a table, computes only inside of marked
expressions, and counts how deep it is in them. Its meaning needs none of
that. `Contribution.total` is the contribution of a node by recursion over
what is below it, and the report of the whole walk is one list: the marked
nodes in the order of leaving, each with the normal form of its total
contribution (`paths_eq`).

The invariant is `Passes`, from the state before a part of the walk to the
state after it, with the nodes left in between. It says of the table only
that every entry is the total contribution of its node, that no entry is
lost, and that inside of marked expressions each node left has one. That is
enough for the rules, because they read the table at nodes below only
(`ofNode_congr`). So it composes along the walk (`Passes.trans`), and no
part of the walk has to know what the others leave alone.
-/
import ComponentPaths.PathExpression.Find
import ComponentPaths.Proofs.PathExpression.Rules

namespace ComponentPaths

-- ================================================================= the walk

namespace PathExpression

open Arena (Linked Below)
open Contribution (total)

/-- The reports for marked nodes among those left. -/
def reports (a : Arena) (file : Text) (marks left : List Nat) : List (Nat × Text) :=
  (left.filter marks.contains).map fun id =>
    (id, Symbolic.normalize (total a file id) (Text.parentDir file))

variable {a : Arena} {file : Text} {marks : List Nat}

/-- What is reported on the way is reported in order. -/
theorem reports_append (left right : List Nat) :
    reports a file marks (left ++ right)
      = reports a file marks left ++ reports a file marks right := by
  unfold reports
  rw [List.filter_append, List.map_append]

theorem reports_singleton (id : Nat) :
    reports a file marks [id]
      = if marks.contains id then
          [(id, Symbolic.normalize (total a file id) (Text.parentDir file))]
        else [] := by
  unfold reports
  rw [List.filter_cons]
  split <;> rfl

namespace Progress

/-- Every entry of the table is the total contribution of its node. -/
structure Faithful (a : Arena) (file : Text) (p : Progress) : Prop where
  size : p.table.size = a.size
  sound : ∀ id text, p.table[id]? = some (some text) → text = total a file id

/-- The table has an entry for a node. -/
def Known (p : Progress) (id : Nat) : Prop :=
  ∃ text, p.table[id]? = some (some text)

/-- What is known of a node is its contribution. -/
theorem Faithful.value_eq {p : Progress} (h : Faithful a file p) {id : Nat}
    (hk : p.Known id) : p.value id = total a file id := by
  obtain ⟨text, htext⟩ := hk
  unfold value
  rw [htext]
  exact h.sound id text htext

/-- What a part of the walk that leaves the nodes `left` does to the state. -/
structure Passes (a : Arena) (file : Text) (marks left : List Nat) (p q : Progress) :
    Prop where
  faithful : Faithful a file q
  depth : q.depth = p.depth
  kept : ∀ id, p.Known id → q.Known id
  known : 0 < p.depth → ∀ id ∈ left, q.Known id
  found : q.found = p.found ++ reports a file marks left

theorem Passes.refl {p : Progress} (h : Faithful a file p) : Passes a file marks [] p p :=
  ⟨h, rfl, fun _ hk => hk, fun _ _ hid => (by cases hid), (List.append_nil _).symm⟩

/-- Nodes can be passed in two parts. -/
theorem Passes.trans {left right : List Nat} {p q r : Progress}
    (hpq : Passes a file marks left p q) (hqr : Passes a file marks right q r) :
    Passes a file marks (left ++ right) p r := by
  refine ⟨hqr.faithful, hqr.depth.trans hpq.depth,
    fun id hk => hqr.kept id (hpq.kept id hk), fun hd id hid => ?_, ?_⟩
  · rcases List.mem_append.1 hid with hid | hid
    · exact hqr.kept id (hpq.known hd id hid)
    · refine hqr.known ?_ id hid
      rw [hpq.depth]
      exact hd
  · rw [hqr.found, hpq.found, reports_append, List.append_assoc]

/-- After a walk through the children of a node, inside of marked expressions,
everything below it is known. -/
theorem Passes.known_below (hl : Linked a) {id : Nat} {p q : Progress}
    (h : Passes a file marks ((a.children id).flatMap a.postorder) p q) (hd : 0 < q.depth)
    {c : Nat} (hc : Below a id c) : q.Known c := by
  refine h.known (by rw [← h.depth]; exact hd) c ?_
  cases hc with
  | child hc => exact List.mem_flatMap.2 ⟨c, hc, Arena.self_mem_postorder hl c⟩
  | @step _ d _ hd hb => exact List.mem_flatMap.2 ⟨d, hd, Arena.mem_postorder_of_below hl hb⟩

/-- A walk through several subtrees, one after another. -/
theorem passes_flatMap (marks : List Nat) {ids : List Nat}
    (h : ∀ id ∈ ids, ∀ p, Faithful a file p →
      Passes a file marks (a.postorder id) p ((a.eventsFrom id).foldl (step a file marks) p))
    {p : Progress} (hp : Faithful a file p) :
    Passes a file marks (ids.flatMap a.postorder) p
      ((ids.flatMap a.eventsFrom).foldl (step a file marks) p) := by
  induction ids generalizing p with
  | nil => exact Passes.refl hp
  | cons id ids ih =>
      rw [List.flatMap_cons, List.flatMap_cons, List.foldl_append]
      have hfirst := h id List.mem_cons_self p hp
      refine hfirst.trans (ih (fun id' hid' => h id' (List.mem_cons_of_mem _ hid')) ?_)
      exact hfirst.faithful

-- ============================================================== one event

/-- The state after entering a node differs in the depth at most. -/
theorem enter_eq (p : Progress) (id : Nat) :
    p.enter marks id
      = { p with depth := if marks.contains id then p.depth + 1 else p.depth } := by
  unfold enter
  split <;> rfl

/-- The entry that leaving a node puts into the table. -/
theorem getElem?_setIfInBounds_some {table : Array (Option Text)} {id other : Nat}
    {text text' : Text}
    (h : (table.setIfInBounds id (some text))[other]? = some (some text')) :
    other = id ∧ text' = text ∨ table[other]? = some (some text') := by
  rw [Array.getElem?_setIfInBounds] at h
  split at h
  · rename_i hid
    split at h
    · cases h
      exact Or.inl ⟨hid.symm, rfl⟩
    · cases h
  · exact Or.inr h

/-- Leaving a node inside of marked expressions, when everything below it is
known. -/
theorem leave_of_known (marks : List Nat) (hl : Linked a) {p : Progress}
    (hp : Faithful a file p) {id : Nat} (hid : id < a.size) (hd : 0 < p.depth)
    (hbelow : ∀ c, Below a id c → p.Known c) :
    Faithful a file (p.leave a file marks id)
      ∧ (∀ n, p.Known n → (p.leave a file marks id).Known n)
      ∧ (p.leave a file marks id).Known id
      ∧ (p.leave a file marks id).depth
          = (if marks.contains id then p.depth - 1 else p.depth)
      ∧ (p.leave a file marks id).found = p.found ++ reports a file marks [id] := by
  have htext : Contribution.ofNode a p.value file id = total a file id := by
    rw [Contribution.total_eq hl]
    exact Contribution.ofNode_congr hl fun c hc => hp.value_eq (hbelow c hc)
  have htable : (p.leave a file marks id).table
      = p.table.setIfInBounds id (some (total a file id)) := by
    unfold leave
    rw [if_neg (by omega), htext]
    dsimp only
    split <;> rfl
  refine ⟨⟨?_, ?_⟩, ?_, ?_, ?_, ?_⟩
  · rw [htable, Array.size_setIfInBounds, hp.size]
  · intro n text hn
    rw [htable] at hn
    rcases getElem?_setIfInBounds_some hn with ⟨rfl, rfl⟩ | hn
    · rfl
    · exact hp.sound n text hn
  · rintro n ⟨text, hn⟩
    unfold Known
    rw [htable, Array.getElem?_setIfInBounds]
    split
    · rename_i hn'
      have hin : id < p.table.size := by
        rw [hp.size]
        exact hid
      rw [if_pos hin]
      exact ⟨_, rfl⟩
    · exact ⟨text, hn⟩
  · unfold Known
    have hin : id < p.table.size := by
      rw [hp.size]
      exact hid
    rw [htable, Array.getElem?_setIfInBounds, if_pos rfl, if_pos hin]
    exact ⟨_, rfl⟩
  · unfold leave
    rw [if_neg (by omega)]
    dsimp only
    split <;> rfl
  · rw [reports_singleton]
    unfold leave
    rw [if_neg (by omega), htext]
    dsimp only
    split
    · rfl
    · exact (List.append_nil _).symm

-- =============================================================== whole walk

/-- The walk through a subtree. -/
theorem passes_subtree (hl : Linked a) (id : Nat) (hid : id < a.size) :
    ∀ p, Faithful a file p →
      Passes a file marks (a.postorder id) p
        ((a.eventsFrom id).foldl (step a file marks) p) := by
  induction id using hl.children_induction with
  | step id ih =>
      intro p hp
      rw [Arena.eventsFrom_eq hl, Arena.postorder_eq hl, List.cons_append, List.foldl_cons,
        List.foldl_append]
      -- entering changes the depth, and below it the children are passed
      have henter : step a file marks p (.enter id)
          = { p with depth := if marks.contains id then p.depth + 1 else p.depth } :=
        enter_eq p id
      rw [henter]
      have hinside := passes_flatMap marks (fun c hc =>
          ih c hc (hl.child id c hc).2.2)
        (p := { p with depth := if marks.contains id then p.depth + 1 else p.depth })
        ⟨hp.size, hp.sound⟩
      generalize ((a.children id).flatMap a.eventsFrom).foldl (step a file marks)
        { p with depth := if marks.contains id then p.depth + 1 else p.depth } = q at hinside ⊢
      show Passes a file marks _ p (q.leave a file marks id)
      have hqd : q.depth = if marks.contains id then p.depth + 1 else p.depth := hinside.depth
      by_cases hd : q.depth = 0
      · -- outside of every marked expression nothing happens
        have hm : marks.contains id = false := by
          cases hm : marks.contains id with
          | false => rfl
          | true =>
              rw [hm, if_pos rfl] at hqd
              omega
        have hleave : q.leave a file marks id = q := by
          unfold leave
          rw [if_pos hd]
        rw [hm, if_neg (by decide)] at hqd
        rw [hleave]
        refine ⟨hinside.faithful, hqd, hinside.kept, fun hpd => ?_, ?_⟩
        · omega
        · rw [hinside.found, reports_append, reports_singleton, hm]
          exact congrArg _ (List.append_nil _).symm
      · have hqpos : 0 < q.depth := by omega
        obtain ⟨hfaithful, hkept, hknown, hdepth, hfound⟩ :=
          leave_of_known marks hl hinside.faithful hid hqpos fun c hc =>
            hinside.known_below hl hqpos hc
        refine ⟨hfaithful, ?_, fun n hn => hkept n (hinside.kept n hn), fun hpd n hn => ?_, ?_⟩
        · rw [hdepth, hqd]
          split <;> omega
        · rcases List.mem_append.1 hn with hn | hn
          · refine hkept n (hinside.known ?_ n hn)
            rw [← hinside.depth]
            omega
          · rw [List.mem_singleton.1 hn]
            exact hknown
        · rw [hfound, hinside.found, reports_append, List.append_assoc]

theorem faithful_start (a : Arena) (file : Text) : Faithful a file (start a) := by
  refine ⟨by simp [start], fun id text h => ?_⟩
  unfold start at h
  rw [Array.getElem?_replicate] at h
  split at h <;> cases h

end Progress

/-- A walk over a file reports the marked nodes in the order of leaving, each
with the normal form of its total contribution. -/
theorem paths_eq (hl : Linked a) :
    paths a file
      = reports a file (Mark.outermost a) (a.roots.flatMap a.postorder) := by
  have hwalk := Progress.passes_flatMap (Mark.outermost a)
    (fun r hr => Progress.passes_subtree hl r (hl.root r hr))
    (Progress.faithful_start a file)
  unfold paths
  rw [Arena.walk, hwalk.found]
  rfl

end PathExpression

end ComponentPaths
