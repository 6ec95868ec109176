/-
The edits of one file never meet.

Marks come from three sides: operands of includes, magic constants and
fields of the configuration variable, the last two carried outward. They
nest in any way, but of nested marks only the outermost are kept, so no two
of the nodes that are reported lie one below the other. In a file whose
spans are `Nested`, as those of a syntax tree are, two such nodes have
disjoint spans: where the ways down to them part, they go through siblings
(`pairwise_span_postorder`, by induction over the tree; the parting of the
ways is the step for a node that is not marked).

Spans that are not empty and do not overlap are all that the applier asks
for (`applyAll_ok`), and `edits_disjoint` puts both together.
-/
import ComponentPaths.Proofs.Decision.Faultless
import ComponentPaths.Proofs.Edit.Splice
import ComponentPaths.Proofs.PathExpression.Discovery

namespace ComponentPaths

-- ================================================================== spans

namespace Span

/-- No byte is in both spans. -/
def Disjoint (s t : Span) : Prop :=
  ∀ i, ¬((s.start ≤ i ∧ i < s.stop) ∧ (t.start ≤ i ∧ i < t.stop))

instance (s t : Span) : Decidable (s.Disjoint t) :=
  decidable_of_iff (min s.stop t.stop ≤ max s.start t.start) <| by
    constructor
    · intro h i hi
      omega
    · intro h
      have hbyte := h (max s.start t.start)
      omega

theorem contains_refl (s : Span) : s.contains s = true := by
  simp [contains]

/-- Spans contain what the spans in them contain. -/
theorem contains_trans {s t u : Span} (hst : s.contains t = true)
    (htu : t.contains u = true) : s.contains u = true := by
  simp only [contains, Bool.and_eq_true, decide_eq_true_eq] at hst htu ⊢
  omega

/-- Two spans that hold bytes of disjoint spans only do not overlap. -/
theorem overlaps_eq_false {s t s' t' : Span} (h : s.Disjoint t)
    (hs : s.contains s' = true) (ht : t.contains t' = true)
    (hs' : s'.start < s'.stop) (ht' : t'.start < t'.stop) : s'.overlaps t' = false := by
  simp only [contains, Bool.and_eq_true, decide_eq_true_eq] at hs ht
  -- the later of the two starts would be a byte of both
  have hbyte := h (max s'.start t'.start)
  simp only [overlaps, Bool.and_eq_false_iff, decide_eq_false_iff_not]
  omega

end Span

namespace Arena

/-- The spans of a syntax tree: children lie in their parent, siblings and
roots are disjoint, and everything lies in the file. -/
structure Nested (a : Arena) : Prop where
  child : ∀ p c, c ∈ a.children p → (a.span p).contains (a.span c) = true
  siblings : ∀ p, (a.children p).Pairwise fun c d => (a.span c).Disjoint (a.span d)
  roots : a.roots.Pairwise fun r s => (a.span r).Disjoint (a.span s)
  inside : ∀ id, id < a.size → (a.span id).stop ≤ a.source.length

/-- Numbers beyond the arena have no children. -/
theorem children_of_size_le {a : Arena} {p : Nat} (h : a.size ≤ p) : a.children p = [] := by
  have hnone : a.node? p = none := Array.getElem?_eq_none h
  simp [children, hnone]

instance (a : Arena) : Decidable (Nested a) :=
  decidable_of_iff
    ((∀ p < a.size, (∀ c ∈ a.children p, (a.span p).contains (a.span c) = true)
        ∧ (a.children p).Pairwise fun c d => (a.span c).Disjoint (a.span d))
      ∧ (a.roots.Pairwise fun r s => (a.span r).Disjoint (a.span s))
      ∧ ∀ id < a.size, (a.span id).stop ≤ a.source.length) <| by
    constructor
    · rintro ⟨hnodes, hroots, hinside⟩
      refine ⟨fun p c hc => ?_, fun p => ?_, hroots, hinside⟩
      · rcases Nat.lt_or_ge p a.size with hp | hp
        · exact (hnodes p hp).1 c hc
        · rw [children_of_size_le hp] at hc
          cases hc
      · rcases Nat.lt_or_ge p a.size with hp | hp
        · exact (hnodes p hp).2
        · rw [children_of_size_le hp]
          exact List.Pairwise.nil
    · intro h
      exact ⟨fun p _ => ⟨h.child p, h.siblings p⟩, h.roots, h.inside⟩

variable {a : Arena}

/-- A node contains what is below it. -/
theorem Nested.contains_below (h : Nested a) {id x : Nat} (hx : Below a id x) :
    (a.span id).contains (a.span x) = true := by
  induction hx with
  | child hc => exact h.child _ _ hc
  | step hc _ ih => exact Span.contains_trans (h.child _ _ hc) ih

theorem Nested.contains_postorder (h : Nested a) (hl : Linked a) {id x : Nat}
    (hx : x ∈ a.postorder id) : (a.span id).contains (a.span x) = true := by
  rcases mem_postorder hl hx with rfl | hbelow
  · exact Span.contains_refl _
  · exact h.contains_below hbelow

/-- Nodes with something in their span. -/
def Solid (a : Arena) (id : Nat) : Prop :=
  (a.span id).start < (a.span id).stop

/-- Kept nodes of subtrees whose tops are disjoint, side by side. -/
theorem pairwise_span_flatMap (h : Nested a) (hl : Linked a) {keep : Nat → Bool}
    {tops : List Nat}
    (hsolid : ∀ x ∈ tops.flatMap a.postorder, keep x = true → Solid a x)
    (htops : tops.Pairwise fun c d => (a.span c).Disjoint (a.span d))
    (heach : ∀ c ∈ tops, ((a.postorder c).filter keep).Pairwise fun x y =>
      (a.span x).overlaps (a.span y) = false) :
    ((tops.flatMap a.postorder).filter keep).Pairwise fun x y =>
      (a.span x).overlaps (a.span y) = false := by
  rw [List.filter_flatMap, List.pairwise_flatMap]
  refine ⟨heach, htops.imp_of_mem fun {c d} hc hd hcd x hx y hy => ?_⟩
  obtain ⟨hx, hxk⟩ := List.mem_filter.1 hx
  obtain ⟨hy, hyk⟩ := List.mem_filter.1 hy
  exact Span.overlaps_eq_false hcd (h.contains_postorder hl hx) (h.contains_postorder hl hy)
    (hsolid x (List.mem_flatMap.2 ⟨c, hc, hx⟩) hxk)
    (hsolid y (List.mem_flatMap.2 ⟨d, hd, hy⟩) hyk)

/-- Of nodes that never lie one below the other, those in a subtree have
disjoint spans. -/
theorem pairwise_span_postorder (h : Nested a) (hl : Linked a) {keep : Nat → Bool}
    (hapart : ∀ x y, keep x = true → keep y = true → ¬Below a x y) (id : Nat) :
    (∀ x ∈ a.postorder id, keep x = true → Solid a x) →
    ((a.postorder id).filter keep).Pairwise fun x y =>
      (a.span x).overlaps (a.span y) = false := by
  induction id using hl.children_induction with
  | step id ih =>
      intro hsolid
      rw [postorder_eq hl] at hsolid ⊢
      have hbelow : ∀ x ∈ (a.children id).flatMap a.postorder, keep x = true → Solid a x :=
        fun x hx => hsolid x (List.mem_append_left _ hx)
      rw [List.filter_append, List.pairwise_append]
      refine ⟨?_, ?_, ?_⟩
      · refine pairwise_span_flatMap h hl hbelow (h.siblings id) fun c hc => ?_
        exact ih c hc fun x hx => hbelow x (List.mem_flatMap.2 ⟨c, hc, hx⟩)
      · exact (List.pairwise_singleton _ _).sublist List.filter_sublist
      · -- a kept top has nothing kept below it
        intro x hx y hy
        obtain ⟨hx, hxk⟩ := List.mem_filter.1 hx
        obtain ⟨hy, hyk⟩ := List.mem_filter.1 hy
        rw [List.mem_singleton.1 hy] at hyk
        obtain ⟨c, hc, hx⟩ := List.mem_flatMap.1 hx
        have hbx : Below a id x := by
          rcases mem_postorder hl hx with rfl | hb
          · exact .child hc
          · exact .step hc hb
        exact absurd hbx (hapart id x hyk hxk)

end Arena

-- ================================================================ reports

namespace PathExpression

open Arena (Linked Below Nested)

variable {a : Arena} {file : Text}

/-- No two expressions that are found overlap. -/
theorem pairwise_find (h : Nested a) (hl : Linked a)
    (hsolid : ∀ e ∈ find a file, e.span.start < e.span.stop) :
    (find a file).Pairwise fun e f => e.span.overlaps f.span = false := by
  rw [find_eq hl, reported_eq_postorder hl] at hsolid ⊢
  rw [List.pairwise_map]
  have hkept : ∀ x ∈ a.roots.flatMap a.postorder,
      (Mark.outermost a).contains x = true → a.Solid x := by
    intro x hx hk
    exact hsolid _ (List.mem_map.2 ⟨x, List.mem_filter.2 ⟨hx, hk⟩, rfl⟩)
  refine Arena.pairwise_span_flatMap h hl hkept h.roots fun r hr => ?_
  have hapart : ∀ x y, (Mark.outermost a).contains x = true →
      (Mark.outermost a).contains y = true → ¬Below a x y := fun x y hx hy =>
    Mark.outermost_apart hl (List.contains_iff_mem.1 hx) (List.contains_iff_mem.1 hy)
  refine Arena.pairwise_span_postorder h hl hapart r fun x hx => ?_
  exact hkept x (List.mem_flatMap.2 ⟨r, hr, hx⟩)

/-- Expressions are found within the file. -/
theorem find_inside (h : Nested a) (hl : Linked a) {e : PathExpression}
    (he : e ∈ find a file) : e.span.stop ≤ a.source.length := by
  rw [find_eq hl, reported_eq_postorder hl] at he
  obtain ⟨x, hx, rfl⟩ := List.mem_map.1 he
  obtain ⟨r, hr, hx⟩ := List.mem_flatMap.1 (List.mem_filter.1 hx).1
  refine h.inside x ?_
  rcases Arena.mem_postorder hl hx with rfl | hbelow
  · exact hl.root _ hr
  · exact (hbelow.lt hl).2

end PathExpression

-- ================================================================== edits

namespace Edit

/-- Disjoint edits inside of a file can be applied, in whatever order they
are given. -/
theorem applyAll_ok {content : Bytes} {edits : List Edit} (path : Text)
    (hsolid : ∀ e ∈ edits, e.span.start < e.span.stop)
    (hinside : ∀ e ∈ edits, e.span.stop ≤ content.length)
    (hapart : edits.Pairwise fun e f => e.span.overlaps f.span = false) :
    ∃ out, applyAll content edits path = .ok out := by
  refine exists_applyAll_ok_iff.2 ⟨fun e he => ?_, hapart.imp_of_mem fun {e f} he hf hef => ?_⟩
  · have hs := hsolid e he
    exact fits_iff.2 ⟨by omega, hinside e he⟩
  · -- two that start at the same place would share their first byte
    have hse := hsolid e he
    have hsf := hsolid f hf
    refine ⟨fun hstart => ?_, hef⟩
    simp only [Span.overlaps, Bool.and_eq_false_iff, decide_eq_false_iff_not] at hef
    omega

end Edit

namespace Finding

open Arena (Nested)

/-- The spans of the edits are spans of the path expressions, in order. -/
theorem edits_span_sublist (findings : List Finding) :
    ((edits findings).map Edit.span).Sublist
      (findings.map fun f => f.expression.span) := by
  induction findings with
  | nil => exact List.Sublist.slnil
  | cons f findings ih =>
      unfold edits at ih ⊢
      cases hr : f.decision.replacement with
      | none =>
          have he : f.edit? = none := by
            unfold edit?
            rw [hr]
            rfl
          rw [List.filterMap_cons_none he, List.map_cons]
          exact List.Sublist.cons _ ih
      | some code =>
          have he : f.edit? = some ⟨f.expression.span, code⟩ := by
            unfold edit?
            rw [hr]
            rfl
          rw [List.filterMap_cons_some he, List.map_cons, List.map_cons]
          exact List.Sublist.cons_cons _ ih

/-- The edits of an analysis can be applied. -/
theorem applyAll_edits_ok {a : Arena} {file : Text} (hb : a.Built) (hn : Nested a)
    (hsolid : ∀ e ∈ PathExpression.find a file, e.span.start < e.span.stop)
    {tree : ComponentTree} {api : Text} {findings : List Finding}
    (h : analyze tree api a file = .ok findings) (path : Text) :
    ∃ out, Edit.applyAll a.source (edits findings) path = .ok out := by
  have hl := hb.linked
  have hspans : ((edits findings).map Edit.span).Sublist
      ((PathExpression.find a file).map PathExpression.span) := by
    have hsub := edits_span_sublist findings
    rw [show (findings.map fun f => f.expression.span)
        = (findings.map Finding.expression).map PathExpression.span by
      rw [List.map_map]
      rfl, (map_expression h).1] at hsub
    exact hsub
  have hmem : ∀ e ∈ edits findings, ∃ x ∈ PathExpression.find a file, x.span = e.span := by
    intro e he
    have hin := hspans.subset (List.mem_map.2 ⟨e, he, rfl⟩)
    exact List.mem_map.1 hin
  refine Edit.applyAll_ok path (fun e he => ?_) (fun e he => ?_) ?_
  · obtain ⟨x, hx, hspan⟩ := hmem e he
    rw [← hspan]
    exact hsolid x hx
  · obtain ⟨x, hx, hspan⟩ := hmem e he
    rw [← hspan]
    exact PathExpression.find_inside hn hl hx
  · have hpair : ((PathExpression.find a file).map PathExpression.span).Pairwise
        fun s t => s.overlaps t = false :=
      List.pairwise_map.2 (PathExpression.pairwise_find hn hl hsolid)
    exact List.pairwise_map.1 (hpair.sublist hspans)

/-- In a file whose spans nest as those of a syntax tree do, the expressions
that are found never overlap, and the edits that are decided on can all be
carried out together. -/
theorem edits_disjoint {a : Arena} {file : Text} (hb : a.Built) (hn : Nested a)
    (hsolid : ∀ e ∈ PathExpression.find a file, e.span.start < e.span.stop) :
    ((PathExpression.find a file).Pairwise fun e f => e.span.overlaps f.span = false)
    ∧ (∀ (tree : ComponentTree) (api path : Text) (findings : List Finding),
        analyze tree api a file = .ok findings →
        ∃ out, Edit.applyAll a.source (edits findings) path = .ok out)
    ∧ ∀ (primary : Manifest) (plugins : List PluginManifest) (api path : Text),
        ∃ findings out, analyze (.ofManifests primary plugins) api a file = .ok findings
          ∧ Edit.applyAll a.source (edits findings) path = .ok out := by
  refine ⟨PathExpression.pairwise_find hn hb.linked hsolid, ?_, ?_⟩
  · intro tree api path findings h
    exact applyAll_edits_ok hb hn hsolid h path
  · intro primary plugins api path
    obtain ⟨findings, hfindings⟩ :=
      analyze_ok (ComponentTree.nameOnTheWay_ofManifests primary plugins) api a file
    obtain ⟨out, hout⟩ := applyAll_edits_ok hb hn hsolid hfindings path
    exact ⟨findings, out, hfindings, hout⟩

/-- Two includes, each marked as the operand and again from inside of it. -/
def twoIncludes : Arena :=
  (Arena.empty (Bytes.ofText "require $CFG->dirroot.'/x';require __DIR__.'/y';"))
    |>.push none "" .expressionStatement ⟨0, 27⟩ 1 1
    |>.push (some 0) "expr" (.inclusion .require) ⟨0, 26⟩ 1 1
    |>.push (some 1) "expr" .concat ⟨8, 26⟩ 1 1
    |>.push (some 2) "left" (.propertyFetch (some "dirroot")) ⟨8, 21⟩ 1 1
    |>.push (some 3) "var" (.variableRef (some "CFG")) ⟨8, 12⟩ 1 1
    |>.push (some 2) "right" (.stringLiteral "/x") ⟨22, 26⟩ 1 1
    |>.push none "" .expressionStatement ⟨27, 48⟩ 1 1
    |>.push (some 6) "expr" (.inclusion .require) ⟨27, 47⟩ 1 1
    |>.push (some 7) "expr" .concat ⟨35, 47⟩ 1 1
    |>.push (some 8) "left" .magicDir ⟨35, 42⟩ 1 1
    |>.push (some 8) "right" (.stringLiteral "/y") ⟨43, 47⟩ 1 1

theorem built_twoIncludes : twoIncludes.Built :=
  (Arena.Built.empty _).top
    |>.under (by decide) |>.under (by decide) |>.under (by decide) |>.under (by decide)
    |>.under (by decide)
    |>.top
    |>.under (by decide) |>.under (by decide) |>.under (by decide) |>.under (by decide)

theorem edits_disjoint_twoIncludes :
    (PathExpression.find twoIncludes "mod/f/x.php").map PathExpression.span
        = [⟨8, 26⟩, ⟨35, 47⟩]
    ∧ ((PathExpression.find twoIncludes "mod/f/x.php").Pairwise fun e f =>
        e.span.overlaps f.span = false)
    ∧ ∀ (primary : Manifest) (plugins : List PluginManifest) (api path : Text),
        ∃ findings out,
          analyze (.ofManifests primary plugins) api twoIncludes "mod/f/x.php" = .ok findings
          ∧ Edit.applyAll twoIncludes.source (edits findings) path = .ok out := by
  have hnested : Nested twoIncludes := by decide +kernel
  have hsolid : ∀ e ∈ PathExpression.find twoIncludes "mod/f/x.php",
      e.span.start < e.span.stop := by
    decide +kernel
  have h := edits_disjoint built_twoIncludes hnested hsolid
  exact ⟨by decide +kernel, h.1, h.2.2⟩

end Finding

end ComponentPaths
