/-
The anchor of a normal form.

A path is anchored before it is collapsed, so its first segment starts with the
root or with a placeholder. Going up stops at the root, and at a segment with a
placeholder in it. It does not stop at the root when text is written right after
it: `@old` is a name like any other there. So a path that starts with such a
name and goes up past it loses the root with the name, and what is left looks
like a path that was never anchored.

`LeadsOut` says when this happens, in the terms of a walk: some beginning of the
segments that follow, all of them known, leads above where it starts. Until
then the names on the stack are the depth of the walk (`pushSegment_loose`). In
every other case the anchor is kept, and the normal form is the same in every
directory (`normalize_keepsAnchor_iff`).
-/
import ComponentPaths.Proofs.Symbolic.Walking

namespace ComponentPaths.Symbolic

-- =================================================================== depth

/-- How far a step leads down. -/
def Step.depth : Step → Int
  | .stay => 0
  | .up => -1
  | .down _ => 1

/-- How far segments without placeholders lead down. -/
def netDepth : List Text → Int
  | [] => 0
  | s :: rest => (Step.ofSegment s).depth + netDepth rest

/-- A segment without placeholders that is not the root. -/
def Definite (s : Text) : Prop :=
  s ≠ "@" ∧ '{' ∉ s

instance (s : Text) : Decidable (Definite s) :=
  inferInstanceAs (Decidable (_ ∧ _))

/-- What is not known cannot be consumed. -/
theorem firm_of_not_definite {s : Text} (h : ¬Definite s) : Firm s := by
  refine firm_iff.2 (Or.inr ?_)
  by_cases hroot : s = "@"
  · exact Or.inl hroot
  · exact Or.inr (Decidable.byContradiction fun hbrace => h ⟨hroot, hbrace⟩)

theorem ne_dots_of_not_definite {s : Text} (h : ¬Definite s) : s ≠ "." ∧ s ≠ ".." := by
  constructor
  · rintro rfl
    exact h (by decide)
  · rintro rfl
    exact h (by decide)

/-- Some beginning of the segments, all of it definite, leads above a place that is
`start` levels up from where they begin. -/
def LeadsOut (start : Int) (rest : List Text) : Prop :=
  ∃ front, front <+: rest ∧ (∀ s ∈ front, Definite s) ∧ start + netDepth front < 0

instance (start : Int) (rest : List Text) : Decidable (LeadsOut start rest) :=
  decidable_of_iff
    (∃ n ∈ List.range (rest.length + 1),
      (∀ s ∈ rest.take n, Definite s) ∧ start + netDepth (rest.take n) < 0)
    ⟨fun ⟨n, _, hdefinite, hdepth⟩ => ⟨rest.take n, List.take_prefix n rest, hdefinite, hdepth⟩,
      fun ⟨front, hfront, hdefinite, hdepth⟩ => by
        have hn : front.length < rest.length + 1 := Nat.lt_succ_of_le hfront.length_le
        refine ⟨front.length, List.mem_range.2 hn, ?_⟩
        rw [← List.prefix_iff_eq_take.1 hfront]
        exact ⟨hdefinite, hdepth⟩⟩

/-- Who is out already needs no step. -/
theorem leadsOut_of_neg {start : Int} (h : start < 0) (rest : List Text) :
    LeadsOut start rest :=
  ⟨[], List.nil_prefix, fun _ hs => (by cases hs), by simpa [netDepth] using h⟩

theorem not_leadsOut_nil {start : Int} (h : 0 ≤ start) : ¬LeadsOut start [] := by
  rintro ⟨front, hfront, -, hdepth⟩
  rw [List.prefix_nil.1 hfront] at hdepth
  rw [netDepth] at hdepth
  omega

/-- The first step is taken if it is definite, and the others follow. -/
theorem leadsOut_cons {start : Int} (h : 0 ≤ start) (s : Text) (rest : List Text) :
    LeadsOut start (s :: rest)
      ↔ Definite s ∧ LeadsOut (start + (Step.ofSegment s).depth) rest := by
  constructor
  · rintro ⟨front, hfront, hdefinite, hdepth⟩
    rcases List.prefix_cons_iff.1 hfront with rfl | ⟨front, rfl, hrest⟩
    · rw [netDepth] at hdepth
      omega
    · refine ⟨hdefinite s List.mem_cons_self, front, hrest,
        fun t ht => hdefinite t (List.mem_cons_of_mem _ ht), ?_⟩
      rw [netDepth] at hdepth
      omega
  · rintro ⟨hs, front, hfront, hdefinite, hdepth⟩
    refine ⟨s :: front, (List.cons_prefix_cons).2 ⟨rfl, hfront⟩, ?_, ?_⟩
    · intro t ht
      rcases List.mem_cons.1 ht with rfl | ht
      · exact hs
      · exact hdefinite t ht
    · rw [netDepth]
      omega

-- ============================================================ loose stacks

/-- Segments that going up consumes one by one, and empty ones. -/
def Loose (left : List Text) : Prop :=
  ∀ s ∈ left, s = [] ∨ isPoppable s = true

/-- One more segment that can be consumed. -/
theorem Loose.cons {s : Text} {left : List Text} (hs : s = [] ∨ isPoppable s = true)
    (h : Loose left) : Loose (s :: left) := by
  intro t ht
  rcases List.mem_cons.1 ht with rfl | ht
  · exact hs
  · exact h t ht

section Loose

variable {first : Text} (hfirst : isPoppable first = true)

include hfirst

/-- Going up from names takes the last of them, and in the end the first
segment. -/
theorem goUp_loose {left : List Text} (h : Loose left) :
    (proper left = [] ∧ goUp (left ++ [first]) = [])
    ∨ ∃ left', Loose left' ∧ (proper left).length = (proper left').length + 1
      ∧ goUp (left ++ [first]) = left' ++ [first] := by
  induction left with
  | nil =>
      refine Or.inl ⟨rfl, ?_⟩
      rw [List.nil_append, ← pushSegment_dots, pushSegment_pop hfirst]
  | cons s left ih =>
      have hleft : Loose left := fun t ht => h t (List.mem_cons_of_mem _ ht)
      by_cases hs : s = []
      · subst hs
        rw [List.cons_append, goUp_cons_nil (by simp)]
        exact ih hleft
      · have hpop : isPoppable s = true := (h s List.mem_cons_self).resolve_left hs
        refine Or.inr ⟨left, hleft, ?_, ?_⟩
        · rw [proper_cons hs, List.length_cons]
        · rw [List.cons_append, ← pushSegment_dots, pushSegment_pop hpop]

/-- A known segment moves the depth of the stack as it moves the walk. Above the
first segment, nothing is left. -/
theorem pushSegment_loose {left : List Text} (h : Loose left) {s : Text} (hs : Definite s) :
    ((proper left).length + (Step.ofSegment s).depth < 0
      ∧ pushSegment (left ++ [first]) s = [])
    ∨ ∃ left', Loose left'
      ∧ ((proper left').length : Int) = (proper left).length + (Step.ofSegment s).depth
      ∧ pushSegment (left ++ [first]) s = left' ++ [first] := by
  by_cases hdot : s = "."
  · subst hdot
    exact Or.inr ⟨left, h, (Int.add_zero _).symm, rfl⟩
  · by_cases hup : s = ".."
    · subst hup
      have hdepth : (Step.ofSegment "..").depth = -1 := rfl
      rw [hdepth, pushSegment_dots]
      rcases goUp_loose hfirst h with ⟨hnone, heq⟩ | ⟨left', hleft', hlen, heq⟩
      · refine Or.inl ⟨?_, heq⟩
        rw [hnone, List.length_nil]
        omega
      · exact Or.inr ⟨left', hleft', by omega, heq⟩
    · refine Or.inr ⟨s :: left, ?_, ?_, pushSegment_plain hdot hup _⟩
      · refine Loose.cons ?_ h
        by_cases hne : s = []
        · exact Or.inl hne
        · refine Or.inr ?_
          simp only [isPoppable, Bool.and_eq_true, bne_iff_ne, Bool.not_eq_true',
            List.isEmpty_eq_false_iff, List.contains_eq_mem, decide_eq_false_iff_not]
          exact ⟨⟨⟨hup, hs.1⟩, hs.2⟩, hne⟩
      · by_cases hne : s = []
        · subst hne
          exact (Int.add_zero _).symm
        · rw [proper_cons hne, Step.ofSegment_name hne hdot hup, List.length_cons]
          exact Int.natCast_succ _

/-- While the walk stays below, the first segment stays. -/
theorem foldl_kept {left rest : List Text} (h : Loose left)
    (hin : ¬LeadsOut (proper left).length rest) :
    ∃ left', rest.foldl pushSegment (left ++ [first]) = left' ++ [first] := by
  induction rest generalizing left with
  | nil => exact ⟨left, rfl⟩
  | cons s rest ih =>
      rw [leadsOut_cons (Int.natCast_nonneg _)] at hin
      rw [List.foldl_cons]
      by_cases hs : Definite s
      · rcases pushSegment_loose hfirst h hs with ⟨hneg, -⟩ | ⟨left', hleft', hlen, heq⟩
        · exact absurd ⟨hs, leadsOut_of_neg hneg rest⟩ hin
        · rw [heq]
          refine ih hleft' fun hout => hin ⟨hs, ?_⟩
          rw [← hlen]
          exact hout
      · -- the segment is firm, and nothing below it moves any more
        have hfirm := firm_of_not_definite hs
        obtain ⟨left', heq, -⟩ := exists_foldl_firm hfirm (left ++ [first]) rest
        refine ⟨left' ++ s :: left, ?_⟩
        rw [pushSegment_plain (ne_dots_of_not_definite hs).1 (ne_dots_of_not_definite hs).2, heq,
          List.append_assoc, List.cons_append]

/-- Once the walk leads out, the first segment and all above it are gone. -/
theorem foldl_spent {left rest : List Text} (h : Loose left)
    (hout : LeadsOut (proper left).length rest) :
    ∃ front back, rest = front ++ back ∧ front.foldl pushSegment (left ++ [first]) = [] := by
  induction rest generalizing left with
  | nil => exact absurd hout (not_leadsOut_nil (Int.natCast_nonneg _))
  | cons s rest ih =>
      obtain ⟨hs, hrest⟩ := (leadsOut_cons (Int.natCast_nonneg _) s rest).1 hout
      rcases pushSegment_loose hfirst h hs with ⟨-, heq⟩ | ⟨left', hleft', hlen, heq⟩
      · exact ⟨[s], rest, rfl, heq⟩
      · rw [← hlen] at hrest
        obtain ⟨front, back, rfl, hnone⟩ := ih hleft' hrest
        refine ⟨s :: front, back, rfl, ?_⟩
        rw [List.foldl_cons, heq, hnone]

end Loose

-- =============================================================== the start

/-- The first segment starts as the path does. -/
theorem exists_segments_cons {c : Char} (hc : c ≠ '/') (t : Text) :
    ∃ first rest, segments (c :: t) = (c :: first) :: rest := by
  unfold segments segmentsFrom
  rw [if_neg fun h => hc h.2]
  cases hs : segmentsFrom (Scan.outside.step c) t with
  | nil => exact absurd hs (segmentsFrom_ne_nil _ _)
  | cons first rest => exact ⟨first, rest, rfl⟩

theorem head?_joinSlash_cons (c : Char) (first : Text) (rest : List Text) :
    (Text.joinSlash ((c :: first) :: rest)).head? = some c := by
  by_cases hrest : rest = []
  · subst hrest
    rw [Text.joinSlash_singleton]
    rfl
  · rw [Text.joinSlash_cons _ hrest]
    rfl

/-- What a joined text can start with. -/
theorem head?_joinSlash {parts : List Text} {c : Char}
    (h : (Text.joinSlash parts).head? = some c) :
    c = '/' ∨ ∃ s ∈ parts, s.head? = some c := by
  cases parts with
  | nil => cases h
  | cons s parts =>
      cases s with
      | nil =>
          by_cases hparts : parts = []
          · subst hparts
            cases h
          · rw [Text.joinSlash_cons _ hparts] at h
            exact Or.inl (Option.some.inj h).symm
      | cons d s =>
          rw [head?_joinSlash_cons] at h
          exact Or.inr ⟨d :: s, List.mem_cons_self, h⟩

/-- Whether a text starts at the root or with an unknown value. -/
def HasAnchor (t : Text) : Prop :=
  isAnchored t = true ∨ isUnanchored t = true

/-- A path has an anchor if it starts at the root or with a placeholder. -/
theorem hasAnchor_iff {t : Text} : HasAnchor t ↔ t.head? = some '@' ∨ t.head? = some '{' := by
  unfold HasAnchor isAnchored isUnanchored
  rw [beq_iff_eq, beq_iff_eq]

/-- An anchor at the front of a path is at the front of a segment. -/
theorem exists_hasAnchor_of_joinSlash {parts : List Text}
    (h : HasAnchor (Text.joinSlash parts)) : ∃ s ∈ parts, HasAnchor s := by
  have hhead : ∀ c, c ≠ '/' → (Text.joinSlash parts).head? = some c →
      ∃ s ∈ parts, s.head? = some c := fun c hc hstart =>
    (head?_joinSlash hstart).resolve_left hc
  rcases hasAnchor_iff.1 h with hroot | hbrace
  · obtain ⟨s, hs, hstart⟩ := hhead '@' (by decide) hroot
    exact ⟨s, hs, hasAnchor_iff.2 (Or.inl hstart)⟩
  · obtain ⟨s, hs, hstart⟩ := hhead '{' (by decide) hbrace
    exact ⟨s, hs, hasAnchor_iff.2 (Or.inr hstart)⟩

/-- A path that has an anchor is given no other. -/
theorem anchor_of_hasAnchor {t : Text} (h : HasAnchor t) (dir : Text) : anchor t dir = t := by
  unfold anchor
  rw [if_pos (by rwa [Bool.or_eq_true])]

/-- A path that is not rooted is put below the root. -/
theorem exists_anchor {t : Text} (h : ¬HasAnchor t) (dir : Text) :
    ∃ below, anchor t dir = '@' :: '/' :: below := by
  unfold anchor
  rw [if_neg (by rwa [Bool.or_eq_true])]
  split
  · exact ⟨_, rfl⟩
  · split
    · exact ⟨_, rfl⟩
    · exact ⟨_, rfl⟩

-- ============================================================= the anchor

/-- A rooted text that normalizing leaves alone, in every directory. -/
def KeepsAnchor (t : Text) : Prop :=
  HasAnchor t ∧ ∀ dir, normalize t dir = t

/-- Whether a path is the root with text right after it, and goes up past that. -/
def SpendsAnchor (raw : Text) : Prop :=
  ∃ first rest, segments raw = first :: rest ∧ first.head? = some '@' ∧ Definite first
    ∧ LeadsOut 0 rest

instance (t : Text) : Decidable (HasAnchor t) :=
  inferInstanceAs (Decidable (_ ∨ _))

instance (raw : Text) : Decidable (SpendsAnchor raw) :=
  match h : segments raw with
  | [] => isFalse fun ⟨_, _, hsegs, _⟩ => List.cons_ne_nil _ _ (hsegs.symm.trans h)
  | first :: rest =>
    decidable_of_iff (first.head? = some '@' ∧ Definite first ∧ LeadsOut 0 rest)
      ⟨fun hs => ⟨first, rest, h, hs⟩, fun ⟨_, _, hsegs, hs⟩ => by
        obtain ⟨rfl, rfl⟩ := List.cons.inj (h.symm.trans hsegs)
        exact hs⟩

/-- A collapsed path with an anchor keeps it. -/
theorem keepsAnchor_collapseDots {t : Text} (h : HasAnchor (collapseDots t)) :
    KeepsAnchor (collapseDots t) := by
  refine ⟨h, fun dir => ?_⟩
  have hne : collapseDots t ≠ [] := by
    intro hnil
    rw [hnil, hasAnchor_iff] at h
    simp at h
  unfold normalize
  rw [if_neg (by simpa using hne), anchor_of_hasAnchor h, collapseDots_idem]

theorem head?_first {t first : Text} {rest : List Text} (h : HasAnchor t)
    (hsegs : segments t = first :: rest) : first.head? = t.head? := by
  rw [hasAnchor_iff] at h
  cases t with
  | nil => simp at h
  | cons c t =>
      have hc : c ≠ '/' := by
        rintro rfl
        simp at h
      obtain ⟨first', rest', hsegs'⟩ := exists_segments_cons hc t
      obtain ⟨rfl, -⟩ := List.cons.inj (hsegs.symm.trans hsegs')
      rfl

/-- A path whose first segment stays keeps its anchor. -/
theorem hasAnchor_of_foldl {t first : Text} {rest left : List Text} (h : HasAnchor t)
    (hsegs : segments t = first :: rest)
    (hstack : rest.foldl pushSegment [first] = left ++ [first]) :
    HasAnchor (collapseDots t) := by
  have hcollapse : collapseDots t = Text.joinSlash (first :: left.reverse) := by
    unfold collapseDots
    rw [hsegs]
    unfold collapseSegments
    dsimp only
    rw [hstack, List.reverse_append]
    rfl
  have hhead := head?_first h hsegs
  rw [hasAnchor_iff] at h ⊢
  rw [← hhead] at h
  cases first with
  | nil => simp at h
  | cons c first =>
      rw [hcollapse, head?_joinSlash_cons]
      exact h

/-- A first segment that only begins like the root can be consumed. -/
theorem isPoppable_of_definite {first : Text} (h : Definite first)
    (hhead : first.head? = some '@') : isPoppable first = true := by
  have hup : first ≠ ".." := by
    rintro rfl
    cases hhead
  have hne : first ≠ [] := by
    rintro rfl
    cases hhead
  simpa [isPoppable] using And.intro ⟨⟨hup, h.1⟩, h.2⟩ hne

theorem loose_nil : Loose [] := fun _ hs => (by cases hs)

/-- A path that does not spend its anchor has it still when it is collapsed. -/
theorem hasAnchor_collapseDots {raw : Text} (h : HasAnchor raw) (hkeep : ¬SpendsAnchor raw) :
    HasAnchor (collapseDots raw) := by
  obtain ⟨first, rest, hsegs⟩ := List.exists_cons_of_ne_nil (segments_ne_nil raw)
  by_cases hdefinite : Definite first
  · have hhead : first.head? = some '@' := by
      rcases hasAnchor_iff.1 h with hroot | hbrace
      · rw [head?_first h hsegs, hroot]
      · rw [← head?_first h hsegs] at hbrace
        exact absurd (List.mem_of_mem_head? hbrace) hdefinite.2
    have hin : ¬LeadsOut 0 rest := fun hout => hkeep ⟨first, rest, hsegs, hhead, hdefinite, hout⟩
    obtain ⟨left, hstack⟩ := foldl_kept (isPoppable_of_definite hdefinite hhead) loose_nil hin
    exact hasAnchor_of_foldl h hsegs hstack
  · obtain ⟨left, hstack, -⟩ := exists_foldl_firm (firm_of_not_definite hdefinite) [] rest
    exact hasAnchor_of_foldl h hsegs hstack

/-- A path that spends its anchor has what follows, if anything. -/
theorem exists_collapseDots_of_spends {raw : Text} (h : SpendsAnchor raw) :
    HasAnchor raw ∧ ∃ left : List Text, collapseDots raw = Text.joinSlash left
      ∧ ∀ s ∈ left, s ∈ (segments raw).tail := by
  obtain ⟨first, rest, hsegs, hhead, hdefinite, hout⟩ := h
  refine ⟨?_, ?_⟩
  · rw [hasAnchor_iff, ← joinSlash_segments raw, hsegs]
    cases first with
    | nil => cases hhead
    | cons c first =>
        rw [head?_joinSlash_cons]
        exact Or.inl hhead
  · obtain ⟨front, back, rfl, hnone⟩ :=
      foldl_spent (isPoppable_of_definite hdefinite hhead) loose_nil hout
    refine ⟨(back.foldl pushSegment []).reverse, ?_, fun s hs => ?_⟩
    · unfold collapseDots
      rw [hsegs]
      unfold collapseSegments
      dsimp only
      rw [List.foldl_append, ← List.nil_append [first], hnone]
    · have hback := (foldl_pushSegment_sublist [] back).subset (List.mem_reverse.1 hs)
      rw [List.append_nil, List.mem_reverse] at hback
      rw [hsegs]
      exact List.mem_append_right _ hback

/-- Normalizing keeps the anchor of every path but those that spend it, and what
it leaves is the same in every directory. Where no later segment could pass for
an anchor, these paths lose it. -/
theorem normalize_keepsAnchor_iff {raw : Text} (hraw : raw ≠ []) (dir : Text) :
    (¬SpendsAnchor raw → KeepsAnchor (normalize raw dir))
    ∧ ((∀ s ∈ (segments raw).tail, ¬HasAnchor s) →
      (KeepsAnchor (normalize raw dir) ↔ ¬SpendsAnchor raw)) := by
  have hnormal : normalize raw dir = collapseDots (anchor raw dir) := by
    unfold normalize
    rw [if_neg (by simpa using hraw)]
  have hkeep : ¬SpendsAnchor raw → KeepsAnchor (normalize raw dir) := by
    intro hin
    rw [hnormal]
    refine keepsAnchor_collapseDots ?_
    by_cases hroot : HasAnchor raw
    · rw [anchor_of_hasAnchor hroot]
      exact hasAnchor_collapseDots hroot hin
    · -- what is put in front is the root and a separator, which nothing consumes
      obtain ⟨below, hbelow⟩ := exists_anchor hroot dir
      have hfirm : Firm "@" := firm_iff.2 (Or.inr (Or.inl rfl))
      obtain ⟨left, hstack, -⟩ := exists_foldl_firm hfirm [] (segments below)
      rw [hbelow]
      exact hasAnchor_of_foldl (Or.inl rfl) (segments_root below) hstack
  refine ⟨hkeep, fun hlater => ⟨fun hkept hspend => ?_, hkeep⟩⟩
  obtain ⟨hroot, left, hleft, hmem⟩ := exists_collapseDots_of_spends hspend
  have hanchor := hkept.1
  rw [hnormal, anchor_of_hasAnchor hroot, hleft] at hanchor
  obtain ⟨s, hs, hpasses⟩ := exists_hasAnchor_of_joinSlash hanchor
  exact hlater s (hmem s hs) hpasses

/-- A path that goes up past a placeholder, which may lead anywhere, and not past
the text right after its root. -/
def gluedRoot : Text :=
  "@old/lib/../a\x7b$a\x7d/../../x.php"

theorem normalize_keepsAnchor_iff_gluedRoot :
    ¬SpendsAnchor gluedRoot
    ∧ normalize gluedRoot "mod/quiz" = "@old/a\x7b$a\x7d/../../x.php"
    ∧ KeepsAnchor (normalize gluedRoot "mod/quiz") := by
  have hlater : ∀ s ∈ (segments gluedRoot).tail, ¬HasAnchor s := by decide
  have hin : ¬SpendsAnchor gluedRoot := by decide
  have hlaws := normalize_keepsAnchor_iff (show gluedRoot ≠ [] by decide) "mod/quiz"
  exact ⟨hin, by decide, (hlaws.2 hlater).2 hin⟩

/-- The root is lost with the text that is written right after it, and what is
left is taken for a path in the directory of the file. -/
theorem anchor_consumed :
    normalize "@old/../lib.php" "mod/quiz" = "lib.php"
    ∧ ¬HasAnchor (normalize "@old/../lib.php" "mod/quiz")
    ∧ normalize (normalize "@old/../lib.php" "mod/quiz") "mod/quiz" = "@/mod/quiz/lib.php" := by
  decide

end ComponentPaths.Symbolic
