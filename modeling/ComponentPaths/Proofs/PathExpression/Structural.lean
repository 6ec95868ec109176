/-
The path of an expression is a function of its syntax tree.

The walk finds paths with a table that it fills as it goes along, so what it
reports could depend on what it has come by before. It does not. At the time
a rule is used, all entries it may read are there (`Ready`): the walk has
just been through everything below the node. This is about the middle of a
walk, where `Passes` is about whole subtrees. So it goes over the walk once
more, now cut before some node is left (`ready_subtree`).

That leaves `Contribution.total`, and it does not look outside of the tree
below a node: where that tree occurs twice, in one file or in two, it has the
same contribution (`SameTree.total_eq`).
-/
import ComponentPaths.Proofs.PathExpression.Discovery

namespace ComponentPaths

open Arena (Linked Below)

-- ================================================================ same tree

namespace Contribution

/-- Two nodes with the same syntax tree, wherever it is. The role of a node is
no part of its tree; the roles of the children are. -/
inductive SameTree (a b : Arena) : Nat → Nat → Prop
  | node {x y : Nat} (kind : a.kind x = b.kind y) (text : a.text x = b.text y)
      (roles : List.Forall₂ (SameRole a b) (a.children x) (b.children y))
      (children : List.Forall₂ (SameTree a b) (a.children x) (b.children y)) :
      SameTree a b x y

variable {a b : Arena} {file : Text} {x y : Nat}

/-- The same tree from what both nodes are and the children they have. -/
theorem SameTree.of_children (cs ds : List Nat)
    (top : a.kind x = b.kind y ∧ a.text x = b.text y)
    (below : a.children x = cs ∧ b.children y = ds)
    (roles : List.Forall₂ (SameRole a b) cs ds) (children : List.Forall₂ (SameTree a b) cs ds) :
    SameTree a b x y := by
  obtain ⟨rfl, rfl⟩ := below
  exact .node top.1 top.2 roles children

theorem SameTree.total_of_below (hla : Linked a) (hlb : Linked b) (h : SameTree a b x y)
    (hbelow : AlikeBelow a (total a file) b (total b file) x y) :
    total a file x = total b file y := by
  cases h with
  | node kind text roles children =>
      rw [Contribution.total_eq hla, Contribution.total_eq hlb]
      exact ofNode_alike hbelow kind text

/-- Below nodes with the same tree, total contributions make no difference. -/
theorem SameTree.alikeBelow (hla : Linked a) (hlb : Linked b) (h : SameTree a b x y) :
    AlikeBelow a (total a file) b (total b file) x y := by
  induction x using hla.children_induction generalizing y with
  | step x ih =>
      cases h with
      | node kind text roles children =>
          refine List.forall₂_iff_zip.2 ⟨children.length_eq, fun {c d} hcd => ?_⟩
          have hrole := (List.forall₂_iff_zip.1 roles).2 hcd
          have htree := (List.forall₂_iff_zip.1 children).2 hcd
          have hbelow := ih c (List.of_mem_zip hcd).1 htree
          have hvalue := htree.total_of_below hla hlb hbelow
          cases htree with
          | node kind text roles children => exact .node kind text hrole hvalue hbelow

/-- The contribution of a node depends on its syntax tree only. -/
theorem SameTree.total_eq (hla : Linked a) (hlb : Linked b) (h : SameTree a b x y) :
    total a file x = total b file y :=
  h.total_of_below hla hlb (h.alikeBelow hla hlb)

end Contribution

-- ==================================================================== ready

namespace PathExpression

open Contribution (total SameTree)

variable {a : Arena} {file : Text} {marks : List Nat}

namespace Progress

/-- The state before a node is left: inside of marked expressions, everything
below the node is in the table. -/
structure Ready (a : Arena) (file : Text) (id : Nat) (p : Progress) : Prop where
  faithful : Faithful a file p
  known : 0 < p.depth → ∀ c, Below a id c → p.Known c

/-- A cut before an event of two walks in a row is in the first or in the
second. -/
theorem cut_append {first second before after : List Arena.Event} {e : Arena.Event}
    (h : first ++ second = before ++ e :: after) :
    (∃ rest, first = before ++ e :: rest)
    ∨ ∃ front, before = first ++ front ∧ second = front ++ e :: after := by
  rcases List.append_eq_append_iff.1 h with ⟨front, hbefore, hsecond⟩ | ⟨rest, hfirst, hafter⟩
  · exact Or.inr ⟨front, hbefore, hsecond⟩
  · cases rest with
    | nil =>
        rw [List.append_nil] at hfirst
        exact Or.inr ⟨[], by rw [List.append_nil, hfirst], hafter.symm⟩
    | cons e' rest =>
        cases hafter
        exact Or.inl ⟨rest, hfirst⟩

/-- A walk through several subtrees, up to where some node is left. -/
theorem ready_flatMap (hl : Linked a) {ids : List Nat} (hin : ∀ id ∈ ids, id < a.size)
    (hready : ∀ id ∈ ids, ∀ p, Faithful a file p → ∀ before x after,
      a.eventsFrom id = before ++ .leave x :: after →
      Ready a file x (before.foldl (step a file marks) p))
    {p : Progress} (hp : Faithful a file p) {before after : List Arena.Event} {x : Nat}
    (h : ids.flatMap a.eventsFrom = before ++ .leave x :: after) :
    Ready a file x (before.foldl (step a file marks) p) := by
  induction ids generalizing p before with
  | nil => simp at h
  | cons id ids ih =>
      rw [List.flatMap_cons] at h
      rcases cut_append h with ⟨rest, hfirst⟩ | ⟨front, rfl, hlater⟩
      · exact hready id List.mem_cons_self p hp before x rest hfirst
      · -- the first subtree is through
        rw [List.foldl_append]
        refine ih (fun id' hid' => hin id' (List.mem_cons_of_mem _ hid'))
          (fun id' hid' => hready id' (List.mem_cons_of_mem _ hid')) ?_ hlater
        exact (passes_subtree hl id (hin id List.mem_cons_self) p hp).faithful

/-- A walk through a subtree, up to where some node is left. -/
theorem ready_subtree (hl : Linked a) (id : Nat) (hid : id < a.size) :
    ∀ p, Faithful a file p → ∀ before x after,
      a.eventsFrom id = before ++ .leave x :: after →
      Ready a file x (before.foldl (step a file marks) p) := by
  induction id using hl.children_induction with
  | step id ih =>
      intro p hp before x after h
      rw [Arena.eventsFrom_eq hl, List.cons_append] at h
      cases before with
      | nil => cases h
      | cons e before =>
          obtain ⟨rfl, htail⟩ := List.cons.inj h
          rw [List.foldl_cons]
          have henter : Faithful a file (step a file marks p (.enter id)) := by
            show Faithful a file (p.enter marks id)
            rw [enter_eq]
            exact ⟨hp.size, hp.sound⟩
          have hin : ∀ c ∈ a.children id, c < a.size := fun c hc => (hl.child id c hc).2.2
          rcases cut_append htail with ⟨rest, hbelow⟩ | ⟨front, rfl, hlast⟩
          · exact ready_flatMap hl hin (fun c hc => ih c hc (hin c hc)) henter hbelow
          · -- the one event left over is that of leaving the top
            cases front with
            | nil =>
                cases hlast
                rw [List.append_nil]
                have hinside := passes_flatMap marks
                  (fun c hc => passes_subtree hl c (hin c hc)) henter
                exact ⟨hinside.faithful, fun hd c hc => hinside.known_below hl hd hc⟩
            | cons e front => simp at hlast

/-- The whole walk, up to where some node is left. -/
theorem ready_walk (hl : Linked a) {before after : List Arena.Event} {x : Nat}
    (h : a.walk = before ++ .leave x :: after) :
    Ready a file x (before.foldl (step a file marks) (start a)) :=
  ready_flatMap hl hl.root (fun r hr => ready_subtree hl r (hl.root r hr))
    (faithful_start a file) h

/-- A rule that is used inside of marked expressions reads entries of the
table that are there: other contributions for the rest make no difference. -/
theorem Ready.ofNode_eq (hl : Linked a) {id : Nat} {p : Progress} (h : Ready a file id p)
    (hd : 0 < p.depth) {v : Nat → Text}
    (hv : ∀ c text, p.table[c]? = some (some text) → v c = text) :
    Contribution.ofNode a v file id = Contribution.ofNode a p.value file id := by
  refine Contribution.ofNode_congr hl fun c hc => ?_
  obtain ⟨text, htext⟩ := h.known hd c hc
  rw [hv c text htext, value, htext]

end Progress

/-- The symbolic paths of a file are the normal forms of contributions that
the rules define by recursion over the syntax tree. The walk uses a rule only
when all that it reads of the table has been written, and the contribution
of a node is the same wherever its tree occurs. -/
theorem paths_structural {a : Arena} (hb : a.Built) (file : Text) :
    (∀ contrib : Nat → Text,
      (∀ id, contrib id = Contribution.ofNode a contrib file id) ↔ contrib = total a file)
    ∧ (find a file
        = ((a.roots.flatMap a.postorder).filter (Mark.outermost a).contains).map fun id =>
            ofNode a id (Symbolic.normalize (total a file id) (Text.parentDir file)))
    ∧ (∀ before id after p, a.walk = before ++ .leave id :: after →
        p = before.foldl (Progress.step a file (Mark.outermost a)) (Progress.start a) →
        p.depth ≠ 0 →
        (∀ c, Below a id c → p.Known c)
        ∧ ∀ v : Nat → Text, (∀ c text, p.table[c]? = some (some text) → v c = text) →
            Contribution.ofNode a v file id = Contribution.ofNode a p.value file id)
    ∧ ∀ b, b.Built → ∀ x y, SameTree a b x y → total a file x = total b file y := by
  have hl := hb.linked
  refine ⟨fun contrib => ⟨Contribution.total_unique hl, ?_⟩, ?_, ?_, ?_⟩
  · rintro rfl id
    exact Contribution.total_eq hl id
  · rw [find_eq hl, reported_eq_postorder hl]
  · rintro before id after p hwalk rfl hd
    have hpos := Nat.pos_of_ne_zero hd
    have hready : Progress.Ready a file id
        (before.foldl (Progress.step a file (Mark.outermost a)) (Progress.start a)) :=
      Progress.ready_walk hl hwalk
    exact ⟨hready.known hpos, fun v hv => hready.ofNode_eq hl hpos hv⟩
  · intro b hb' x y h
    exact h.total_eq hl hb'.linked

/-- A path to a file, in an include. -/
def includedPath : Arena :=
  (Arena.empty (Bytes.ofText "require dirname(__DIR__).'/lib.php';"))
    |>.push none "" .expressionStatement ⟨0, 36⟩ 1 1
    |>.push (some 0) "expr" (.inclusion .require) ⟨0, 35⟩ 1 1
    |>.push (some 1) "expr" .concat ⟨8, 35⟩ 1 1
    |>.push (some 2) "left" (.funcCall (some "dirname")) ⟨8, 24⟩ 1 1
    |>.push (some 3) "args" .arg ⟨16, 23⟩ 1 1
    |>.push (some 4) "value" .magicDir ⟨16, 23⟩ 1 1
    |>.push (some 2) "right" (.stringLiteral "/lib.php") ⟨25, 35⟩ 1 1

/-- The same path, assigned to a variable. -/
def assignedPath : Arena :=
  (Arena.empty (Bytes.ofText "$x = dirname(__DIR__).'/lib.php';"))
    |>.push none "" .expressionStatement ⟨0, 33⟩ 1 1
    |>.push (some 0) "expr" .assign ⟨0, 32⟩ 1 1
    |>.push (some 1) "var" (.variableRef (some "x")) ⟨0, 2⟩ 1 1
    |>.push (some 1) "expr" .concat ⟨5, 32⟩ 1 1
    |>.push (some 3) "left" (.funcCall (some "dirname")) ⟨5, 21⟩ 1 1
    |>.push (some 4) "args" .arg ⟨13, 20⟩ 1 1
    |>.push (some 5) "value" .magicDir ⟨13, 20⟩ 1 1
    |>.push (some 3) "right" (.stringLiteral "/lib.php") ⟨22, 32⟩ 1 1

theorem built_includedPath : includedPath.Built :=
  (Arena.Built.empty _).top
    |>.under (by decide) |>.under (by decide) |>.under (by decide) |>.under (by decide)
    |>.under (by decide) |>.under (by decide)

theorem built_assignedPath : assignedPath.Built :=
  (Arena.Built.empty _).top
    |>.under (by decide) |>.under (by decide) |>.under (by decide) |>.under (by decide)
    |>.under (by decide) |>.under (by decide) |>.under (by decide)

theorem sameTree_includedPath : SameTree includedPath assignedPath 2 3 := by
  have hdir : SameTree includedPath assignedPath 5 6 :=
    .of_children [] [] (by decide +kernel) (by decide +kernel) .nil .nil
  have harg : SameTree includedPath assignedPath 4 5 :=
    .of_children [5] [6] (by decide +kernel) (by decide +kernel) (by decide +kernel)
      (.cons hdir .nil)
  have hcall : SameTree includedPath assignedPath 3 4 :=
    .of_children [4] [5] (by decide +kernel) (by decide +kernel) (by decide +kernel)
      (.cons harg .nil)
  have hliteral : SameTree includedPath assignedPath 6 7 :=
    .of_children [] [] (by decide +kernel) (by decide +kernel) .nil .nil
  exact .of_children [3, 6] [4, 7] (by decide +kernel) (by decide +kernel)
    (by decide +kernel) (.cons hcall (.cons hliteral .nil))

theorem paths_structural_includedPath :
    (find includedPath "mod/quiz/view.php").map PathExpression.symbolic
      = [("@/mod/lib.php" : Text)]
    ∧ total includedPath "mod/quiz/view.php" 2 = total assignedPath "mod/quiz/view.php" 3 := by
  have h := paths_structural built_includedPath "mod/quiz/view.php"
  refine ⟨by decide +kernel, ?_⟩
  exact h.2.2.2 assignedPath built_assignedPath 2 3 sameTree_includedPath

end PathExpression

end ComponentPaths
