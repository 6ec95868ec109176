/-
Every place of a file that builds a path is found, once, and in order.

What is reported are the outermost marks, in the order in which the walk
leaves them (`paths_eq`). They are apart: none lies below another
(`outermost_apart`). From there on the claims about reports are about nodes
that are apart. They come in the order of entering as well (`reported_eq`),
so in no other order and none of them twice.

That nothing is missed has three parts. A walk enters every node, so every
node that gives rise to a mark does so. The mark it gives rise to has it
within: an operand is marked itself, and a climb goes outward only
(`climb?_within`). And every mark is within an outermost one, the topmost of
the marks around it (`exists_outermost_within`); there is no second one,
since two nodes with a third within both are not apart.
-/
import Mathlib.Logic.ExistsUnique
import Mathlib.Logic.Relation
import ComponentPaths.Proofs.Arena.Walks
import ComponentPaths.Proofs.PathExpression.Reports

namespace ComponentPaths

open Arena (Linked Placed Below Within)

variable {a : Arena} {file : Text}

-- ================================================================= climbing

namespace Mark

/-- A climb from a node comes by another one. -/
def Reaches (a : Arena) : Nat → Nat → Prop :=
  Relation.ReflTransGen fun x y => outward? a x = some y

/-- The next larger expression has the smaller one below it. -/
theorem outward?_below (hp : Placed a) {id outer : Nat} (h : outward? a id = some outer) :
    Below a outer id := by
  unfold outward? at h
  cases hparent : a.parent? id with
  | none =>
      rw [hparent] at h
      cases h
  | some parent =>
      have hchild := hp.below id parent hparent
      simp only [hparent] at h
      split at h
      · cases h
        exact .child hchild
      · cases h
        exact .child hchild
      · -- an argument stands between the value and the call
        obtain ⟨hcall, -⟩ := Option.filter_eq_some_iff.1 h
        exact .step (hp.below parent outer hcall) (.child hchild)
      · cases h

/-- A climb ends at a node that has its start within. -/
theorem climb?_within (hp : Placed a) {id top : Nat} (h : climb? a id = some top) :
    Within a top id := by
  induction id using Nat.strongRecOn with
  | ind id ih =>
      rw [climb?] at h
      split at h
      · cases h
      · cases hout : outward? a id with
        | none =>
            simp only [hout] at h
            cases h
            exact .refl a _
        | some outer =>
            simp only [hout] at h
            split at h
            · rename_i hlt
              exact (ih outer hlt h).trans (Or.inr (outward?_below hp hout))
            · cases h
              exact .refl a _

/-- A climb that comes by nothing that is assigned to has an end. -/
theorem exists_climb? {id : Nat}
    (h : ∀ x, Reaches a id x → isAssignmentTarget a x = false) :
    ∃ top, climb? a id = some top := by
  induction id using Nat.strongRecOn with
  | ind id ih =>
      rw [climb?, if_neg (by rw [h id .refl]; decide)]
      cases hout : outward? a id with
      | none => exact ⟨id, rfl⟩
      | some outer =>
          dsimp only
          split
          · rename_i hlt
            exact ih outer hlt fun x hx => h x (.head hout hx)
          · exact ⟨id, rfl⟩

-- ==================================================================== marks

theorem configField?_eq_some {id : Nat} {field : Text} (h : configField? a id = some field) :
    a.kind id = .propertyFetch (some field) ∧ ∃ base, a.childByRole? id "var" = some base := by
  unfold configField? at h
  split at h
  · rename_i field' hkind
    split at h
    · rename_i base hbase
      split at h
      · cases h
        exact ⟨hkind, base, hbase⟩
      · cases h
    · cases h
  · cases h

/-- A field that starts a path marks the end of the climb from it. -/
theorem markOf?_configField {id : Nat} {field : Text} (h : configField? a id = some field)
    (hfield : field ∈ rootFields) : markOf? a id = climb? a id := by
  unfold markOf?
  rw [(configField?_eq_some h).1]
  exact if_pos (by simpa [h] using hfield)

/-- Every node that gives rise to a mark does so. -/
theorem mem_all (hp : Placed a) (hl : Linked a) {id mark : Nat} (hid : id < a.size)
    (h : markOf? a id = some mark) : mark ∈ all a :=
  List.mem_filterMap.2 ⟨id, Arena.mem_entered_walk hp hl hid, h⟩

theorem mem_outermost {id : Nat} :
    id ∈ outermost a ↔ id ∈ all a ∧ ∀ x ∈ a.ancestors id, x ∉ all a := by
  unfold outermost
  simp [List.mem_filter]

/-- No outermost mark lies below another. -/
theorem outermost_apart (hl : Linked a) {x y : Nat} (hx : x ∈ outermost a)
    (hy : y ∈ outermost a) : ¬Below a x y := by
  intro hbelow
  exact (mem_outermost.1 hy).2 x (Arena.mem_ancestors_of_below hl hbelow) (mem_outermost.1 hx).1

/-- A mark is within an outermost one. -/
theorem exists_outermost_within (hp : Placed a) (hl : Linked a) {mark : Nat}
    (h : mark ∈ all a) : ∃ r ∈ outermost a, Within a r mark := by
  induction mark using Nat.strongRecOn with
  | ind mark ih =>
      by_cases hmark : ∃ x ∈ a.ancestors mark, x ∈ all a
      · obtain ⟨x, hx, hall⟩ := hmark
        have hbelow := Arena.below_of_mem_ancestors hp hx
        obtain ⟨r, hr, hwithin⟩ := ih x (hbelow.lt hl).1 hall
        exact ⟨r, hr, hwithin.trans (Or.inr hbelow)⟩
      · refine ⟨mark, mem_outermost.2 ⟨h, fun x hx hall => ?_⟩, .refl a mark⟩
        exact hmark ⟨x, hx, hall⟩

/-- What is within a mark is within exactly one outermost mark. -/
theorem existsUnique_outermost (hp : Placed a) (hl : Linked a) {mark x : Nat}
    (h : mark ∈ all a) (hx : Within a mark x) : ∃! r, r ∈ outermost a ∧ Within a r x := by
  obtain ⟨r, hr, hwithin⟩ := exists_outermost_within hp hl h
  have hrx := hwithin.trans hx
  refine ⟨r, ⟨hr, hrx⟩, ?_⟩
  rintro s ⟨hs, hsx⟩
  rcases hsx.chain hl hrx with (rfl | hb) | (rfl | hb)
  · rfl
  · exact absurd hb (outermost_apart hl hs hr)
  · rfl
  · exact absurd hb (outermost_apart hl hr hs)

end Mark

-- ================================================================== reports

namespace PathExpression

/-- The nodes of the path expressions of a file, as they are reported. -/
def reported (a : Arena) (file : Text) : List Nat :=
  (paths a file).map Prod.fst

/-- The reported nodes are the outermost marks, in the order of leaving. -/
theorem reported_eq_postorder (hl : Linked a) :
    reported a file = (a.roots.flatMap a.postorder).filter (Mark.outermost a).contains := by
  unfold reported
  rw [paths_eq hl, reports, List.map_map]
  exact List.map_id _

/-- The path expressions of a file, by node. -/
theorem find_eq (hl : Linked a) :
    find a file = (reported a file).map fun id =>
      ofNode a id (Symbolic.normalize (Contribution.total a file id) (Text.parentDir file)) := by
  rw [reported_eq_postorder hl]
  unfold find
  rw [paths_eq hl, reports, List.map_map]
  rfl

/-- The reported nodes are the outermost marks, in the order of entering. -/
theorem reported_eq (hl : Linked a) :
    reported a file = (Arena.entered a.walk).filter (Mark.outermost a).contains := by
  rw [reported_eq_postorder hl]
  refine (Arena.filter_entered_walk hl fun x y hx hy => ?_).symm
  exact Mark.outermost_apart hl (List.contains_iff_mem.1 hx) (List.contains_iff_mem.1 hy)

theorem mem_reported (hp : Placed a) (hl : Linked a) {id : Nat} (hid : id < a.size) :
    id ∈ reported a file ↔ id ∈ Mark.outermost a := by
  rw [reported_eq hl, List.mem_filter, List.contains_iff_mem]
  exact and_iff_right (Arena.mem_entered_walk hp hl hid)

/-- What is within a mark is within exactly one reported node. -/
theorem existsUnique_reported (hp : Placed a) (hl : Linked a) {mark x : Nat}
    (h : mark ∈ Mark.all a) (hx : Within a mark x) (hin : x < a.size) :
    ∃! r, r ∈ reported a file ∧ Within a r x := by
  -- what has a node within is a node itself
  have hsame : ∀ r, r ∈ reported a file ∧ Within a r x ↔ r ∈ Mark.outermost a ∧ Within a r x := by
    refine fun r => and_congr_left fun hwithin => mem_reported hp hl ?_
    rcases hwithin with rfl | hb
    · exact hin
    · have := (hb.lt hl).1
      omega
  simp only [hsame]
  exact Mark.existsUnique_outermost hp hl h hx

/-- Every operand of an include, and every field of the configuration variable
that starts a path and is not part of something assigned to, is within
exactly one of the reported nodes. Of those none is an ancestor of another
and none is reported twice, and they come in the order in which the walk
enters nodes. -/
theorem discovery_complete {a : Arena} (hb : a.Built) (file : Text) :
    (∃ symbolic : Nat → Text,
        find a file = (reported a file).map fun id => ofNode a id (symbolic id))
    ∧ (∀ id how operand, a.kind id = .inclusion how →
        a.childByRole? id "expr" = some operand →
        ∃! r, r ∈ reported a file ∧ Within a r operand)
    ∧ (∀ id field, Mark.configField? a id = some field → field = "dirroot" ∨ field = "libdir" →
        (∀ x, Mark.Reaches a id x → Mark.isAssignmentTarget a x = false) →
        ∃! r, r ∈ reported a file ∧ Within a r id)
    ∧ (∀ x ∈ reported a file, ∀ y ∈ reported a file, x ∉ a.ancestors y)
    ∧ (reported a file).Nodup
    ∧ (reported a file).Sublist (Arena.entered a.walk) ∧ (Arena.entered a.walk).Nodup := by
  have hl := hb.linked
  have hp := hb.placed
  have hwalk := Arena.nodup_entered_walk hp hl
  have hsub : (reported a file).Sublist (Arena.entered a.walk) := by
    rw [reported_eq hl]
    exact List.filter_sublist
  refine ⟨⟨_, find_eq hl⟩, ?_, ?_, ?_, hwalk.sublist hsub, hsub, hwalk⟩
  · intro id how operand hkind hchild
    have hoperand := hl.child id operand (Arena.mem_children_of_childByRole? hchild)
    have hmark : Mark.markOf? a id = some operand := by
      unfold Mark.markOf?
      rw [hkind]
      exact hchild
    exact existsUnique_reported hp hl (Mark.mem_all hp hl (by omega) hmark) (.refl a operand)
      hoperand.2.2
  · intro id field hconfig hfield hclimb
    obtain ⟨-, base, hbase⟩ := Mark.configField?_eq_some hconfig
    have hchild := hl.child id base (Arena.mem_children_of_childByRole? hbase)
    obtain ⟨top, htop⟩ := Mark.exists_climb? hclimb
    have hmark : Mark.markOf? a id = some top := by
      rw [Mark.markOf?_configField hconfig (by simpa [Mark.rootFields] using hfield)]
      exact htop
    exact existsUnique_reported hp hl (Mark.mem_all hp hl (by omega) hmark)
      (Mark.climb?_within hp htop) (by omega)
  · intro x hx y hy hancestor
    rw [reported_eq hl, List.mem_filter, List.contains_iff_mem] at hx hy
    exact Mark.outermost_apart hl hx.2 hy.2 (Arena.below_of_mem_ancestors hp hancestor)

/-- An include in the operand of an include, beside a field of the
configuration variable. -/
def nestedInclude : Arena :=
  (Arena.empty (Bytes.ofText "require $CFG->libdir.(include 'a');"))
    |>.push none "" .expressionStatement ⟨0, 35⟩ 1 1
    |>.push (some 0) "expr" (.inclusion .require) ⟨0, 34⟩ 1 1
    |>.push (some 1) "expr" .concat ⟨8, 34⟩ 1 1
    |>.push (some 2) "left" (.propertyFetch (some "libdir")) ⟨8, 20⟩ 1 1
    |>.push (some 3) "var" (.variableRef (some "CFG")) ⟨8, 12⟩ 1 1
    |>.push (some 2) "right" (.inclusion .include_) ⟨22, 33⟩ 1 1
    |>.push (some 5) "expr" (.stringLiteral "a") ⟨30, 33⟩ 1 1

theorem built_nestedInclude : nestedInclude.Built :=
  (Arena.Built.empty _).top
    |>.under (by decide) |>.under (by decide) |>.under (by decide) |>.under (by decide)
    |>.under (by decide) |>.under (by decide)

theorem discovery_complete_nestedInclude :
    Mark.all nestedInclude = [2, 2, 6] ∧ reported nestedInclude "f.php" = [2]
    ∧ ∃! r, r ∈ reported nestedInclude "f.php" ∧ Within nestedInclude r 6 := by
  have h := discovery_complete built_nestedInclude "f.php"
  refine ⟨by decide +kernel, by decide +kernel, ?_⟩
  exact h.2.1 5 .include_ 6 (by decide +kernel) (by decide +kernel)

end PathExpression

end ComponentPaths
