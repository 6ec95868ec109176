/-
Walks as brackets.

To enter a node is to open a bracket, and to leave it is to close that bracket.
The nodes that are open are kept on a stack, and a walk is properly nested if
only the innermost of them is ever left (`opened?`). A walk through a subtree
starts with the ancestors of its top node open, each node it comes to finds its
own ancestors open, and in the end the same ones are open as before
(`trace_eventsFrom`). As everything that is opened is closed again, a node is
left as often as it is entered (`count_of_opened?`).

So what a walk knows from going down is what the links to the parents say, in
any arena that is built, whatever the order of its nodes (`walk_brackets`).
-/
import ComponentPaths.Proofs.Arena.Growth

namespace ComponentPaths.Arena

variable {a : Arena}

-- ============================================================== open nodes

/-- The open nodes after an event, innermost first. Only the innermost one can be
left. -/
def Event.replay? : List Nat → Event → Option (List Nat)
  | opened, .enter id => some (id :: opened)
  | [], .leave _ => none
  | top :: opened, .leave id => if top = id then some opened else none

/-- The open nodes after some events, if these are properly nested. -/
def opened? (opened : List Nat) (events : List Event) : Option (List Nat) :=
  events.foldlM Event.replay? opened

theorem opened?_leave (n : Nat) (opened : List Nat) (events : List Event) :
    opened? (n :: opened) (.leave n :: events) = opened? opened events := by
  unfold opened?
  rw [List.foldlM_cons]
  simp [Event.replay?]

/-- Whatever is opened is closed again or still open. -/
theorem count_of_opened? {opened last : List Nat} {events : List Event}
    (h : opened? opened events = some last) (n : Nat) :
    events.count (.enter n) + opened.count n = events.count (.leave n) + last.count n := by
  induction events generalizing opened with
  | nil =>
      cases h
      simp
  | cons event events ih =>
      obtain ⟨next, hnext, hrest⟩ := Option.bind_eq_some_iff.1 h
      have hcount := ih hrest
      cases event with
      | enter id =>
          cases hnext
          simp only [List.count_cons, beq_iff_eq, Event.enter.injEq, reduceCtorEq, if_false]
            at hcount ⊢
          omega
      | leave id =>
          cases opened with
          | nil => cases hnext
          | cons top opened =>
              simp only [Event.replay?] at hnext
              split at hnext
              · next htop =>
                cases hnext
                subst htop
                simp only [List.count_cons, beq_iff_eq, Event.leave.injEq, reduceCtorEq, if_false]
                omega
              · cases hnext

-- ================================================================== traces

/-- Events that find the ancestors of each node open when they enter it, and leave
the innermost open node only. -/
inductive Trace (a : Arena) : List Nat → List Event → List Nat → Prop
  | nil (opened : List Nat) : Trace a opened [] opened
  | enter {n : Nat} {events : List Event} {last : List Nat}
      (rest : Trace a (n :: a.ancestors n) events last) :
      Trace a (a.ancestors n) (.enter n :: events) last
  | leave {n : Nat} {opened : List Nat} {events : List Event} {last : List Nat}
      (rest : Trace a opened events last) : Trace a (n :: opened) (.leave n :: events) last

/-- A walk can be traced in two parts. -/
theorem Trace.append {opened middle last : List Nat} {events more : List Event}
    (h : Trace a opened events middle) (hmore : Trace a middle more last) :
    Trace a opened (events ++ more) last := by
  induction h with
  | nil => exact hmore
  | enter _ ih => exact .enter (ih hmore)
  | leave _ ih => exact .leave (ih hmore)

/-- Subtrees side by side leave open what was open. -/
theorem Trace.flatMap {opened : List Nat} {tops : List Nat}
    (h : ∀ top ∈ tops, Trace a opened (a.eventsFrom top) opened) :
    Trace a opened (tops.flatMap a.eventsFrom) opened := by
  induction tops with
  | nil => exact .nil opened
  | cons top tops ih =>
      rw [List.flatMap_cons]
      exact (h top List.mem_cons_self).append
        (ih fun other hother => h other (List.mem_cons_of_mem _ hother))

/-- A walk through a subtree starts and ends with the ancestors of its top node
open. -/
theorem trace_eventsFrom (hl : Linked a) (id : Nat) :
    Trace a (a.ancestors id) (a.eventsFrom id) (a.ancestors id) := by
  induction id using hl.children_induction with
  | step id ih =>
      rw [eventsFrom_eq hl]
      refine .enter (Trace.append (Trace.flatMap fun child hchild => ?_) (.leave (.nil _)))
      rw [← ancestors_of_child hl hchild]
      exact ih child hchild

/-- A root has no ancestors. -/
theorem ancestors_root (hp : Placed a) {r : Nat} (hr : r ∈ a.roots) : a.ancestors r = [] := by
  rw [ancestors, hp.root r hr]

/-- A walk opens and closes its nodes in order, from none to none. -/
theorem trace_walk (hp : Placed a) (hl : Linked a) : Trace a [] a.walk [] := by
  refine Trace.flatMap fun r hr => ?_
  have htrace := trace_eventsFrom hl r
  rwa [ancestors_root hp hr] at htrace

/-- What a trace leaves open is what a replay leaves open. -/
theorem Trace.opened?_eq {opened last : List Nat} {events : List Event}
    (h : Trace a opened events last) : opened? opened events = some last := by
  induction h with
  | nil => rfl
  | enter _ ih => exact ih
  | leave _ ih =>
      rw [opened?_leave]
      exact ih

/-- When a node is entered, its ancestors are open. -/
theorem Trace.opened?_before {opened last : List Nat} {before after : List Event} {n : Nat}
    (h : Trace a opened (before ++ .enter n :: after) last) :
    opened? opened before = some (a.ancestors n) := by
  induction before generalizing opened with
  | nil =>
      cases h
      rfl
  | cons event before ih =>
      cases h with
      | enter rest => exact ih rest
      | leave rest =>
          rw [opened?_leave]
          exact ih rest

-- =================================================================== links

/-- Ancestors follow the parents, up to a node that has none. -/
theorem ancestors_eq (hp : Placed a) (hl : Linked a) (n : Nat) :
    a.ancestors n = (a.parent? n).elim [] fun p => p :: a.ancestors p := by
  cases hparent : a.parent? n with
  | none =>
      rw [ancestors, hparent]
      rfl
  | some p => exact ancestors_of_child hl (hp.below n p hparent)

theorem count_enter (events : List Event) (n : Nat) :
    events.count (.enter n) = (entered events).count n := by
  induction events with
  | nil => rfl
  | cons event events ih =>
      cases event with
      | enter id =>
          have hcons : entered (.enter id :: events) = id :: entered events := rfl
          rw [hcons, List.count_cons, List.count_cons, ih]
          simp
      | leave id =>
          have hcons : entered (.leave id :: events) = entered events := rfl
          rw [hcons, List.count_cons, ih]
          simp

/-- A walk enters each node once, and nothing else. -/
theorem count_enter_walk (hp : Placed a) (hl : Linked a) (n : Nat) :
    a.walk.count (.enter n) = if n < a.size then 1 else 0 := by
  have hmem : n ∈ entered a.walk ↔ n < a.size :=
    ⟨lt_size_of_mem_walk hl, mem_entered_walk hp hl⟩
  simp only [count_enter, (nodup_entered_walk hp hl).count, hmem]

-- ====================================================== one event at a time

/-- A walk that is under way: a top node that is not entered yet, and the open nodes
with the place of the child that comes next, innermost first. -/
structure Cursor where
  pending : Option Nat
  stack : List (Nat × Nat)

namespace Cursor

/-- Before the walk through a subtree. -/
def start (top : Nat) : Cursor :=
  ⟨some top, []⟩

/-- The next event and what is to come after it; nothing when the walk is over. -/
def next? (a : Arena) : Cursor → Option (Event × Cursor)
  | ⟨some top, stack⟩ => some (.enter top, ⟨none, (top, 0) :: stack⟩)
  | ⟨none, []⟩ => none
  | ⟨none, (id, place) :: stack⟩ =>
    match (a.children id)[place]? with
    | some child => some (.enter child, ⟨none, (child, 0) :: (id, place + 1) :: stack⟩)
    | none => some (.leave id, ⟨none, stack⟩)

/-- The events that are still to come, up to the end of the walk. -/
inductive Yields (a : Arena) : Cursor → List Event → Prop
  | done {c : Cursor} (h : c.next? a = none) : Yields a c []
  | more {c next : Cursor} {event : Event} {events : List Event}
      (h : c.next? a = some (event, next)) (rest : Yields a next events) :
      Yields a c (event :: events)

/-- What is to come from an open node on: its other children, its end, and what
comes after it. -/
theorem yields_open (hl : Linked a) (id : Nat) {stack : List (Nat × Nat)} {after : List Event}
    (hafter : Yields a ⟨none, stack⟩ after) (place : Nat) :
    Yields a ⟨none, (id, place) :: stack⟩
      (((a.children id).drop place).flatMap a.eventsFrom ++ .leave id :: after) := by
  induction id using hl.children_induction generalizing stack after place with
  | step id ih =>
      -- the children that are left get fewer
      induction hleft : (a.children id).drop place generalizing place with
      | nil =>
          have hnone : (a.children id)[place]? = none := by
            rw [List.getElem?_eq_none_iff]
            exact List.drop_eq_nil_iff.1 hleft
          refine .more ?_ hafter
          simp only [next?, hnone]
      | cons child rest ihrest =>
          have hchild : (a.children id)[place]? = some child := by
            rw [← List.head?_drop, hleft, List.head?_cons]
          have hrest : (a.children id).drop (place + 1) = rest := by
            rw [← List.tail_drop, hleft, List.tail_cons]
          have hmem : child ∈ a.children id := List.mem_of_getElem? hchild
          have hinner := ih child hmem (ihrest (place + 1) hrest) 0
          rw [List.flatMap_cons, eventsFrom_eq hl child]
          simp only [List.cons_append, List.append_assoc, List.nil_append]
          rw [List.drop_zero] at hinner
          refine .more ?_ hinner
          simp only [next?, hchild]

/-- One event at a time, a walk through a subtree comes to its end. -/
theorem yields_start (hl : Linked a) (top : Nat) : Yields a (start top) (a.eventsFrom top) := by
  have hdone : Yields a ⟨none, []⟩ [] := .done rfl
  rw [eventsFrom_eq hl, List.cons_append]
  exact .more rfl (yields_open hl top hdone 0)

end Cursor

/-- In a built arena a walk enters and leaves each node once, and nothing else. It
is properly nested, and the nodes that are open when a node is entered are its
ancestors, which follow the parents. So a node is below another if and only if
the other is one of its ancestors. Taken one event at a time, with a stack of
places, the walk is the same, and ends. -/
theorem walk_brackets (h : Built a) :
    (∀ n, a.walk.count (.enter n) = (if n < a.size then 1 else 0)
      ∧ a.walk.count (.leave n) = if n < a.size then 1 else 0)
    ∧ opened? [] a.walk = some []
    ∧ (∀ before n after, a.walk = before ++ .enter n :: after →
        opened? [] before = some (a.ancestors n))
    ∧ (∀ n, a.ancestors n = (a.parent? n).elim [] fun p => p :: a.ancestors p)
    ∧ (∀ n r, n ∈ a.descendants r ↔ r ∈ a.ancestors n)
    ∧ ∀ top, Cursor.Yields a (.start top) (a.eventsFrom top) := by
  have hl := h.linked
  have hp := h.placed
  have htrace := trace_walk hp hl
  have hnested := htrace.opened?_eq
  refine ⟨fun n => ⟨count_enter_walk hp hl n, ?_⟩, hnested, fun before n after hwalk => ?_,
    ancestors_eq hp hl, fun n r => ?_, Cursor.yields_start hl⟩
  · have hcount := count_of_opened? hnested n
    rw [count_enter_walk hp hl n] at hcount
    simpa using hcount.symm
  · rw [hwalk] at htrace
    exact htrace.opened?_before
  · rw [mem_descendants hl]
    exact ⟨mem_ancestors_of_below hl, below_of_mem_ancestors hp⟩

/-- Nodes in another order than that of a walk: after a second root, the first one
and its child get further children, and an end is moved. -/
def interleaved : Arena :=
  (Arena.empty [])
    |>.push none "" .expressionStatement ⟨0, 0⟩ 1 1
    |>.push (some 0) "expr" .concat ⟨0, 0⟩ 1 1
    |>.push none "" .expressionStatement ⟨0, 0⟩ 2 2
    |>.push (some 0) "comments" (.other "Comment") ⟨0, 0⟩ 1 1
    |>.push (some 1) "left" .magicDir ⟨0, 0⟩ 1 1
    |>.setEnd 0 9 2

theorem built_interleaved : interleaved.Built :=
  .setEnd ((Built.empty _).top.under (by decide) |>.top |>.under (by decide) |>.under (by decide))
    0 9 2

theorem walk_brackets_interleaved :
    interleaved.walk
      = [.enter 0, .enter 1] ++ .enter 4 :: [.leave 4, .leave 1, .enter 3, .leave 3, .leave 0,
        .enter 2, .leave 2]
    ∧ opened? [] [.enter 0, .enter 1] = some (interleaved.ancestors 4)
    ∧ interleaved.walk.count (.leave 4) = 1
    ∧ 4 ∈ interleaved.descendants 0 := by
  have hwalk : interleaved.walk
      = [.enter 0, .enter 1] ++ .enter 4 :: [.leave 4, .leave 1, .enter 3, .leave 3, .leave 0,
        .enter 2, .leave 2] := by
    decide +kernel
  obtain ⟨hcount, -, hopen, -, hbelow, -⟩ := walk_brackets built_interleaved
  refine ⟨hwalk, hopen _ _ _ hwalk, (hcount 4).2, (hbelow 4 0).2 ?_⟩
  decide +kernel

end ComponentPaths.Arena
