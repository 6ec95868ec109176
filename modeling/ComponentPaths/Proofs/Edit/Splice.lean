/-
Applying edits puts all of them in at once.

The meaning of a list of edits needs neither a sort nor offsets that move.
`weave` reads the file once, from the first edit to the last: it copies what
stands before an edit, puts the edit in, and goes on behind it. The applier
works the other way round and one edit at a time, from the last to the
first. `foldr_splice` joins the two. Its invariant is that what stands before
every edit applied so far is still the file as it was, so that the offsets
of an edit to come mean the same in the buffer and in the file.

The check compares neighbours only. One edit `Precedes` another when it
starts and ends before the other starts, and this is transitive, so
neighbours say it for all pairs (`fault?_eq_none_iff`). For edits that fit,
one of two precedes the other exactly when they start at different places
and do not overlap (`apart_iff`), which speaks of no order any more.

Edits with the same span can stand in either order after the sort. They
always meet, and a fault names spans alone, so not even then does the order
in which edits are given show (`applyAll_perm`).
-/
import Mathlib.Algebra.BigOperators.Group.List.Basic
import Mathlib.Algebra.Ring.Int.Defs
import ComponentPaths.Edit

namespace ComponentPaths.Edit

variable {content : Bytes} {edits : List Edit} {path : Text}

-- ================================================================ sorting

theorem notBefore_trans (a b c : Edit) (hab : a.notBefore b = true)
    (hbc : b.notBefore c = true) : a.notBefore c = true := by
  simp only [notBefore, Bool.or_eq_true, Bool.and_eq_true, beq_iff_eq,
    decide_eq_true_eq] at hab hbc ⊢
  omega

theorem notBefore_total (a b : Edit) : (a.notBefore b || b.notBefore a) = true := by
  simp only [notBefore, Bool.or_eq_true, Bool.and_eq_true, beq_iff_eq, decide_eq_true_eq]
  omega

/-- Sorting loses no edit. -/
theorem fromLast_perm (edits : List Edit) : (fromLast edits).Perm edits :=
  List.mergeSort_perm edits notBefore

/-- Sorted edits come last first. -/
theorem pairwise_fromLast (edits : List Edit) :
    (fromLast edits).Pairwise fun l e => l.notBefore e = true :=
  List.pairwise_mergeSort notBefore_trans notBefore_total edits

/-- Edits that neither comes before the other have the same span. -/
theorem span_eq_of_notBefore {a b : Edit} (hab : a.notBefore b = true)
    (hba : b.notBefore a = true) : a.span = b.span := by
  simp only [notBefore, Bool.or_eq_true, Bool.and_eq_true, beq_iff_eq,
    decide_eq_true_eq] at hab hba
  have hstart : a.span.start = b.span.start := by omega
  have hstop : a.span.stop = b.span.stop := by omega
  cases ha : a.span
  cases hb : b.span
  simp_all

-- ============================================================ preceding

/-- An edit starts and ends before another one starts. -/
def Precedes (e later : Edit) : Prop :=
  e.span.start < later.span.start ∧ e.span.stop ≤ later.span.start

/-- Two edits start at different places and share nothing. -/
def Apart (e f : Edit) : Prop :=
  e.span.start ≠ f.span.start ∧ e.span.overlaps f.span = false

/-- The order of edits that do not meet is an order. -/
theorem Precedes.trans {a b c : Edit} (hab : a.Precedes b) (hbc : b.Precedes c) :
    a.Precedes c := by
  unfold Precedes at *
  omega

theorem Precedes.asymm {a b : Edit} (hab : a.Precedes b) : ¬b.Precedes a := by
  unfold Precedes at *
  omega

theorem Apart.symm {e f : Edit} (h : e.Apart f) : f.Apart e := by
  unfold Apart Span.overlaps at *
  refine ⟨Ne.symm h.1, ?_⟩
  rw [Bool.and_comm]
  exact h.2

/-- An edit fits if its span is one and is within the file. -/
theorem fits_iff {length : Nat} {e : Edit} :
    e.fits length = true ↔ e.span.start ≤ e.span.stop ∧ e.span.stop ≤ length := by
  simp only [fits, Bool.and_eq_true, decide_eq_true_eq]

/-- An edit that does not meet the next is before it. -/
theorem meets_eq_false_iff {length : Nat} {e later : Edit} (he : e.fits length = true) :
    e.meets later = false ↔ e.Precedes later := by
  rw [fits_iff] at he
  simp only [meets, Precedes, Bool.or_eq_false_iff, decide_eq_false_iff_not,
    beq_eq_false_iff_ne]
  omega

/-- Of two edits that fit, one precedes the other when they are apart, and
only then. -/
theorem apart_iff {length : Nat} {e f : Edit} (he : e.fits length = true)
    (hf : f.fits length = true) : e.Apart f ↔ e.Precedes f ∨ f.Precedes e := by
  rw [fits_iff] at he hf
  simp only [Apart, Precedes, Span.overlaps, Bool.and_eq_false_iff, decide_eq_false_iff_not]
  omega

/-- The check passes when every edit fits and precedes all those before it in
the list. -/
theorem fault?_eq_none_iff {length : Nat} {later : Option Edit} :
    fault? path length later edits = none ↔
      (∀ e ∈ edits, e.fits length = true)
      ∧ (∀ l, later = some l → ∀ e ∈ edits, e.Precedes l)
      ∧ edits.Pairwise fun l e => e.Precedes l := by
  induction edits generalizing later with
  | nil => simp [fault?]
  | cons e edits ih =>
      unfold fault?
      by_cases he : e.fits length = true
      · rw [if_neg (by simp [he])]
        by_cases hl : ∃ l, later = some l ∧ e.meets l = true
        · -- the neighbour is the one that is met
          obtain ⟨l, rfl, hmeets⟩ := hl
          have hnot : ¬e.Precedes l := by
            rw [← meets_eq_false_iff he, hmeets]
            decide
          simp only [Option.filter, hmeets, if_true, reduceCtorEq, false_iff]
          rintro ⟨-, hlater, -⟩
          exact hnot (hlater l rfl e List.mem_cons_self)
        · have hnone : later.filter e.meets = none := by
            rw [Option.filter_eq_none_iff]
            intro l hmem hmeets
            exact hl ⟨l, hmem, hmeets⟩
          have hprec : ∀ l, later = some l → e.Precedes l := by
            intro l hmem
            rw [← meets_eq_false_iff he]
            cases hmeets : e.meets l with
            | false => rfl
            | true => exact absurd ⟨l, hmem, hmeets⟩ hl
          rw [hnone]
          dsimp only
          rw [ih]
          constructor
          · rintro ⟨hfits, hfirst, hpairs⟩
            have hfirst : ∀ f ∈ edits, f.Precedes e := hfirst e rfl
            refine ⟨?_, fun l hmem f hf => ?_, List.pairwise_cons.2 ⟨hfirst, hpairs⟩⟩
            · intro f hf
              rcases List.mem_cons.1 hf with rfl | hf
              · exact he
              · exact hfits f hf
            · rcases List.mem_cons.1 hf with rfl | hf
              · exact hprec l hmem
              · exact (hfirst f hf).trans (hprec l hmem)
          · rintro ⟨hfits, -, hpairs⟩
            obtain ⟨hfirst, hpairs⟩ := List.pairwise_cons.1 hpairs
            refine ⟨fun f hf => hfits f (List.mem_cons_of_mem _ hf), ?_, hpairs⟩
            intro l hmem
            cases hmem
            exact hfirst
      · rw [if_pos (by simpa using he)]
        simp only [reduceCtorEq, false_iff]
        rintro ⟨hfits, -, -⟩
        exact he (hfits e List.mem_cons_self)

-- ================================================================ the file

/-- The file from `pos` on with the edits put in, which are given from the
first to the last: what stands before each, then what it puts in. -/
def weave (content : Bytes) : (pos : Nat) → List Edit → Bytes
  | pos, [] => content.drop pos
  | pos, e :: rest =>
    (content.take e.span.start).drop pos ++ e.bytes ++ weave content e.span.stop rest

/-- Applied from the last to the first, edits leave what stands before them as
it was, and from there on give the file with all of them put in. -/
theorem foldr_splice (hfits : ∀ e ∈ edits, e.fits content.length = true)
    (hpairs : edits.Pairwise Precedes) (pos : Nat) (hpos : pos ≤ content.length)
    (hbefore : ∀ e ∈ edits, pos ≤ e.span.start) :
    (edits.foldr (fun e out => splice out e) content).take pos = content.take pos
    ∧ (edits.foldr (fun e out => splice out e) content).drop pos
        = weave content pos edits := by
  induction edits generalizing pos with
  | nil => exact ⟨rfl, rfl⟩
  | cons e edits ih =>
      obtain ⟨hfirst, hrest⟩ := List.pairwise_cons.1 hpairs
      have hfit := fits_iff.1 (hfits e List.mem_cons_self)
      have hstart := hbefore e List.mem_cons_self
      have hfits' : ∀ f ∈ edits, f.fits content.length = true :=
        fun f hf => hfits f (List.mem_cons_of_mem _ hf)
      -- the edits behind this one leave its start and its stop where they were
      have htake := (ih hfits' hrest e.span.start (by omega)
        fun f hf => by have := hfirst f hf; unfold Precedes at this; omega).1
      have hdrop := (ih hfits' hrest e.span.stop (by omega)
        fun f hf => (hfirst f hf).2).2
      have hout : (e :: edits).foldr (fun e out => splice out e) content
          = content.take e.span.start ++ (e.bytes ++ weave content e.span.stop edits) := by
        rw [List.foldr_cons, splice, htake, hdrop, List.append_assoc]
      have hlength : (content.take e.span.start).length = e.span.start :=
        List.length_take_of_le (by omega)
      rw [hout]
      constructor
      · rw [List.take_append_of_le_length (by omega), List.take_take,
          Nat.min_eq_left hstart]
      · rw [List.drop_append_of_le_length (by omega), weave, List.append_assoc]

/-- The file with the edits put in is longer by what they add. -/
theorem length_weave (hfits : ∀ e ∈ edits, e.fits content.length = true)
    (hpairs : edits.Pairwise Precedes) (pos : Nat) (hpos : pos ≤ content.length)
    (hbefore : ∀ e ∈ edits, pos ≤ e.span.start) :
    ((weave content pos edits).length : Int)
      = content.length - pos + (edits.map delta).sum := by
  induction edits generalizing pos with
  | nil =>
      simp only [weave, List.length_drop, List.map_nil, List.sum_nil]
      omega
  | cons e edits ih =>
      obtain ⟨hfirst, hrest⟩ := List.pairwise_cons.1 hpairs
      have hfit := fits_iff.1 (hfits e List.mem_cons_self)
      have hstart := hbefore e List.mem_cons_self
      have hbehind := ih (fun f hf => hfits f (List.mem_cons_of_mem _ hf)) hrest
        e.span.stop (by omega) fun f hf => (hfirst f hf).2
      simp only [weave, List.length_append, List.length_drop, List.length_take, List.map_cons,
        List.sum_cons, delta]
      omega

-- ============================================================ applying all

/-- The edits that can be applied together. -/
theorem fault?_fromLast_eq_none_iff (path : Text) {length : Nat} :
    fault? path length none (fromLast edits) = none ↔
      (∀ e ∈ edits, e.fits length = true) ∧ edits.Pairwise Apart := by
  have hperm := fromLast_perm edits
  have hapart : (fromLast edits).Pairwise Apart ↔ edits.Pairwise Apart :=
    hperm.pairwise_iff Apart.symm
  rw [fault?_eq_none_iff, ← hapart]
  constructor
  · rintro ⟨hfits, -, hpairs⟩
    refine ⟨fun e he => hfits e (hperm.mem_iff.2 he), hpairs.imp_of_mem ?_⟩
    intro l e hl he hle
    exact (apart_iff (hfits l hl) (hfits e he)).2 (Or.inr hle)
  · rintro ⟨hfits, hpairs⟩
    have hfits' : ∀ e ∈ fromLast edits, e.fits length = true :=
      fun e he => hfits e (hperm.mem_iff.1 he)
    refine ⟨hfits', fun l hl => (by cases hl), ?_⟩
    refine ((pairwise_fromLast edits).and hpairs).imp_of_mem ?_
    intro l e hl he hle
    rcases (apart_iff (hfits' l hl) (hfits' e he)).1 hle.2 with hprec | hprec
    · -- the sort would have put them the other way round
      have horder := hle.1
      simp only [notBefore, Bool.or_eq_true, Bool.and_eq_true, beq_iff_eq,
        decide_eq_true_eq] at horder
      have := hprec.1
      omega
    · exact hprec

/-- Edits are applied if there is no fault, from the last to the first. -/
theorem applyAll_eq_ok_iff {out : Bytes} :
    applyAll content edits path = .ok out ↔
      fault? path content.length none (fromLast edits) = none
      ∧ (fromLast edits).foldl splice content = out := by
  unfold applyAll
  dsimp only
  cases fault? path content.length none (fromLast edits) with
  | none => simp
  | some fault => simp

/-- Edits can be applied together when they fit and are apart, and only then. -/
theorem exists_applyAll_ok_iff :
    (∃ out, applyAll content edits path = .ok out) ↔
      (∀ e ∈ edits, e.fits content.length = true) ∧ edits.Pairwise Apart := by
  rw [← fault?_fromLast_eq_none_iff path]
  constructor
  · rintro ⟨out, hout⟩
    exact (applyAll_eq_ok_iff.1 hout).1
  · intro hnone
    exact ⟨_, applyAll_eq_ok_iff.2 ⟨hnone, rfl⟩⟩

/-- What edits that are applied together give: the file with them put in from
the first to the last. -/
theorem applyAll_eq_weave {out : Bytes} (h : applyAll content edits path = .ok out) :
    ∃ ordered, ordered.Perm edits ∧ ordered.Pairwise Precedes
      ∧ (∀ e ∈ ordered, e.fits content.length = true) ∧ out = weave content 0 ordered := by
  obtain ⟨hnone, hout⟩ := applyAll_eq_ok_iff.1 h
  obtain ⟨hfits, -, hpairs⟩ := fault?_eq_none_iff.1 hnone
  have hmem : ∀ e ∈ (fromLast edits).reverse, e.fits content.length = true :=
    fun e he => hfits e (List.mem_reverse.1 he)
  have hordered : (fromLast edits).reverse.Pairwise Precedes :=
    List.pairwise_reverse.2 hpairs
  refine ⟨(fromLast edits).reverse,
    (List.reverse_perm _).trans (fromLast_perm edits), hordered, hmem, ?_⟩
  have hweave := (foldr_splice hmem hordered 0 (Nat.zero_le _) fun e _ => Nat.zero_le _).2
  rw [List.drop_zero, List.foldr_reverse] at hweave
  rw [← hout]
  exact hweave

/-- The length changes by what each edit adds or takes. -/
theorem length_applyAll {out : Bytes} (h : applyAll content edits path = .ok out) :
    (out.length : Int) = content.length + (edits.map delta).sum := by
  obtain ⟨ordered, hperm, hpairs, hfits, rfl⟩ := applyAll_eq_weave h
  rw [length_weave hfits hpairs 0 (Nat.zero_le _) fun e _ => Nat.zero_le _,
    (hperm.map delta).sum_eq]
  omega

-- =================================================================== order

/-- The check reads spans alone. -/
theorem fault?_congr {length : Nat} {later later' : Option Edit} {edits edits' : List Edit}
    (hlater : later.map span = later'.map span) (h : edits.map span = edits'.map span) :
    fault? path length later edits = fault? path length later' edits' := by
  induction edits generalizing later later' edits' with
  | nil =>
      cases edits' with
      | nil => rfl
      | cons e' edits' => cases h
  | cons e edits ih =>
      cases edits' with
      | nil => cases h
      | cons e' edits' =>
          obtain ⟨hhead, hrest⟩ := List.cons.inj h
          have hspan : e.span = e'.span := hhead
          have hfits : e.fits length = e'.fits length := by
            rw [fits, fits, hspan]
          have houtside : outside path length e = outside path length e' := by
            rw [outside, outside, hspan]
          have hnext : fault? path length (some e) edits = fault? path length (some e') edits' :=
            ih (congrArg some hspan) hrest
          rw [fault?, fault?, hfits, houtside, hnext]
          cases later with
          | none =>
              cases later' with
              | none => rfl
              | some l' => cases hlater
          | some l =>
              cases later' with
              | none => cases hlater
              | some l' =>
                  have hl : l.span = l'.span := Option.some.inj hlater
                  have hmeets : e.meets l = e'.meets l' := by
                    rw [meets, meets, hspan, hl]
                  simp only [Option.filter, hmeets]
                  cases e'.meets l' with
                  | false => rfl
                  | true => simp only [if_true, hspan, hl]

theorem map_span_fromLast_perm {edits' : List Edit} (h : edits'.Perm edits) :
    (fromLast edits').map span = (fromLast edits).map span := by
  have hsorted : ∀ l : List Edit, ((fromLast l).map span).Pairwise fun s t =>
      (Edit.mk s []).notBefore ⟨t, []⟩ = true := by
    intro l
    rw [List.pairwise_map]
    exact pairwise_fromLast l
  refine List.Perm.eq_of_pairwise ?_ (hsorted edits') (hsorted edits) ?_
  · intro s t _ _ hst hts
    exact span_eq_of_notBefore hst hts
  · exact ((fromLast_perm edits').trans (h.trans (fromLast_perm edits).symm)).map span

/-- The order in which edits are given makes no difference, neither to the
file nor to the fault. -/
theorem applyAll_perm {edits' : List Edit} (h : edits'.Perm edits) :
    applyAll content edits' path = applyAll content edits path := by
  have hfault : fault? path content.length none (fromLast edits')
      = fault? path content.length none (fromLast edits) :=
    fault?_congr rfl (map_span_fromLast_perm h)
  unfold applyAll
  dsimp only
  rw [hfault]
  cases hnone : fault? path content.length none (fromLast edits) with
  | some fault => rfl
  | none =>
      -- without a fault no two edits have one span, so there is one order
      rw [hnone] at hfault
      have heq : fromLast edits' = fromLast edits := by
        refine List.Perm.eq_of_pairwise ?_ (fault?_eq_none_iff.1 hfault).2.2
          (fault?_eq_none_iff.1 hnone).2.2
          ((fromLast_perm edits').trans (h.trans (fromLast_perm edits).symm))
        intro a b _ _ hab hba
        exact absurd hba hab.asymm
      rw [heq]

/-- Edits are put in all at once. They can be when each lies in the file, no
two start at the same place and no two overlap (an empty edit strictly inside
of another overlaps it), and only then. What comes out is the file read from
the first edit to the last, and it is longer by what the edits add. The
outcome is the same in whatever order they are given. -/
theorem applyAll_simultaneous (content : Bytes) (edits : List Edit) (path : Text) :
    ((∃ out, applyAll content edits path = .ok out) ↔
      (∀ e ∈ edits, e.span.start ≤ e.span.stop ∧ e.span.stop ≤ content.length)
      ∧ edits.Pairwise fun e f =>
          e.span.start ≠ f.span.start ∧ e.span.overlaps f.span = false)
    ∧ (∀ out, applyAll content edits path = .ok out →
        (∃ ordered, ordered.Perm edits
          ∧ (ordered.Pairwise fun e f => e.span.start < f.span.start)
          ∧ out = weave content 0 ordered)
        ∧ (out.length : Int) = content.length + (edits.map delta).sum)
    ∧ ∀ edits', edits'.Perm edits →
        applyAll content edits' path = applyAll content edits path := by
  refine ⟨?_, fun out hout => ⟨?_, length_applyAll hout⟩, fun edits' h => applyAll_perm h⟩
  · simp only [← fits_iff]
    exact exists_applyAll_ok_iff
  · obtain ⟨ordered, hperm, hpairs, -, hweave⟩ := applyAll_eq_weave hout
    exact ⟨ordered, hperm, hpairs.imp fun h => h.1, hweave⟩

/-- An insertion right behind a replacement, given in either order. -/
theorem applyAll_simultaneous_touching :
    applyAll (Bytes.ofText "abcdef") [⟨⟨3, 3⟩, "+"⟩, ⟨⟨0, 3⟩, "X"⟩] "f"
        = .ok (Bytes.ofText "X+def")
    ∧ applyAll (Bytes.ofText "abcdef") [⟨⟨0, 3⟩, "X"⟩, ⟨⟨3, 3⟩, "+"⟩] "f"
        = .ok (Bytes.ofText "X+def") := by
  have hout : applyAll (Bytes.ofText "abcdef") [⟨⟨3, 3⟩, "+"⟩, ⟨⟨0, 3⟩, "X"⟩] "f"
      = .ok (Bytes.ofText "X+def") := by
    have hsorted : fromLast [⟨⟨3, 3⟩, "+"⟩, ⟨⟨0, 3⟩, "X"⟩] = [⟨⟨3, 3⟩, "+"⟩, ⟨⟨0, 3⟩, "X"⟩] :=
      List.mergeSort_of_pairwise (by decide)
    rw [applyAll_eq_ok_iff, hsorted]
    decide +kernel
  have h := applyAll_simultaneous (Bytes.ofText "abcdef")
    [⟨⟨3, 3⟩, "+"⟩, ⟨⟨0, 3⟩, "X"⟩] "f"
  exact ⟨hout, (h.2.2 _ (.swap _ _ [])).trans hout⟩

end ComponentPaths.Edit
