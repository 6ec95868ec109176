/-
What placeholders hold.

A text that closes its placeholders is made of plain characters and of
sealed code in braces. That is `Tidy`, the form in which closed texts are
taken apart (`tidy_iff_closed`), and `Holds part` says of such a text that
`part` stands in one of the placeholders.

What a placeholder holds survives everything that is done to a path:

- texts are put one after another (`Holds.append`, `Holds.after`);
- a path is cut at separators, which never cuts a placeholder
  (`Holds.exists_segment`), and joined again (`holds_joinSlash`);
- dots are collapsed, which never consumes a segment with a placeholder
  (`Holds.collapseDots`, `Holds.normalize`);
- a path becomes code, where the code of every placeholder stands as it was
  (`Holds.infix_of_toExpression?`).
-/
import ComponentPaths.Proofs.Symbolic.Collapse
import ComponentPaths.Proofs.Symbolic.Sealed

namespace ComponentPaths.Symbolic

-- ============================================================== tidy texts

/-- Texts whose placeholders are closed and hold sealed code. -/
inductive Tidy : Text → Prop
  | nil : Tidy []
  | plain {c : Char} {t : Text} (known : c ≠ '{') (rest : Tidy t) : Tidy (c :: t)
  | hole {code t : Text} (shut : Sealed code) (rest : Tidy t) : Tidy (placeholder code ++ t)

/-- Tidy texts with a placeholder that holds `part`. -/
inductive Holds (part : Text) : Text → Prop
  | here {code t : Text} (shut : Sealed code) (inside : part <:+: code) (rest : Tidy t) :
      Holds part (placeholder code ++ t)
  | plain {c : Char} {t : Text} (known : c ≠ '{') (rest : Holds part t) : Holds part (c :: t)
  | hole {code t : Text} (shut : Sealed code) (rest : Holds part t) :
      Holds part (placeholder code ++ t)

variable {part t u : Text}

/-- A scan that comes out of a placeholder does so after sealed code. -/
theorem exists_sealed_of_run {scan : Scan} (hscan : scan ≠ .outside)
    (h : scan.run t = .outside) :
    ∃ code rest, t = code ++ '}' :: rest ∧ scan.inside code = some (.code 0) ∧ Closed rest := by
  induction t generalizing scan with
  | nil => exact absurd h hscan
  | cons c t ih =>
      rw [Scan.run_cons] at h
      by_cases hout : scan.step c = .outside
      · obtain ⟨rfl, rfl⟩ := Scan.eq_of_step_outside hscan hout
        exact ⟨[], t, rfl, rfl, h⟩
      · obtain ⟨code, rest, rfl, hcode, hrest⟩ := ih hout h
        refine ⟨c :: code, rest, rfl, ?_, hrest⟩
        unfold Scan.inside
        rw [if_neg hout, hcode]

/-- A text that closes its placeholders can be taken apart. -/
theorem tidy_of_closed (h : Closed t) : Tidy t := by
  induction hn : t.length using Nat.strongRecOn generalizing t with
  | ind n ih =>
      cases t with
      | nil => exact .nil
      | cons c t =>
          rw [List.length_cons] at hn
          by_cases hc : c = '{'
          · subst hc
            have hrun : (Scan.code 0).run t = .outside := h
            obtain ⟨code, rest, rfl, hcode, hrest⟩ := exists_sealed_of_run (by simp) hrun
            rw [List.length_append, List.length_cons] at hn
            have htidy := Tidy.hole hcode (ih rest.length (by omega) hrest rfl)
            rwa [placeholder_append] at htidy
          · have hrest : Closed t := by
              unfold Closed at h ⊢
              rwa [Scan.run_cons, Scan.step_outside hc] at h
            exact .plain hc (ih t.length (by omega) hrest rfl)

theorem Tidy.closed (h : Tidy t) : Closed t := by
  induction h with
  | nil => rfl
  | plain known _ ih =>
      unfold Closed at ih ⊢
      rw [Scan.run_cons, Scan.step_outside known, ih]
  | hole shut _ ih => exact (closed_placeholder shut).append ih

/-- Tidy texts are those that close all their placeholders. -/
theorem tidy_iff_closed : Tidy t ↔ Closed t :=
  ⟨Tidy.closed, tidy_of_closed⟩

/-- A text without braces is tidy. -/
theorem tidy_of_not_mem (h : '{' ∉ t) : Tidy t :=
  tidy_of_closed (closed_of_not_mem h)

theorem tidy_placeholder {code : Text} (h : Sealed code) : Tidy (placeholder code) := by
  have hhole := Tidy.hole h .nil
  rwa [List.append_nil] at hhole

/-- A placeholder holds what its code has. -/
theorem holds_placeholder {code : Text} (h : Sealed code) (hpart : part <:+: code) :
    Holds part (placeholder code) := by
  have hhere := Holds.here h hpart .nil
  rwa [List.append_nil] at hhere

/-- Tidy texts are tidy one after the other. -/
theorem Tidy.append (ht : Tidy t) (hu : Tidy u) : Tidy (t ++ u) := by
  induction ht with
  | nil => exact hu
  | plain known _ ih => exact .plain known ih
  | hole shut _ ih =>
      rw [List.append_assoc]
      exact .hole shut ih

theorem Holds.tidy (h : Holds part t) : Tidy t := by
  induction h with
  | here shut _ rest => exact .hole shut rest
  | plain known _ ih => exact .plain known ih
  | hole shut _ ih => exact .hole shut ih

/-- What comes after a text takes nothing out of it, -/
theorem Holds.append (ht : Holds part t) (hu : Tidy u) : Holds part (t ++ u) := by
  induction ht with
  | here shut inside rest =>
      rw [List.append_assoc]
      exact .here shut inside (rest.append hu)
  | plain known _ ih => exact .plain known ih
  | hole shut _ ih =>
      rw [List.append_assoc]
      exact .hole shut ih

/-- and neither does what comes before. -/
theorem Holds.after (ht : Tidy t) (hu : Holds part u) : Holds part (t ++ u) := by
  induction ht with
  | nil => exact hu
  | plain known _ ih => exact .plain known ih
  | hole shut _ ih =>
      rw [List.append_assoc]
      exact .hole shut ih

theorem mem_placeholder (code : Text) : '{' ∈ placeholder code :=
  List.mem_cons_self

/-- A text that holds something has a brace. -/
theorem Holds.mem_brace (h : Holds part t) : '{' ∈ t := by
  induction h with
  | here _ _ _ => exact List.mem_append_left _ (mem_placeholder _)
  | plain _ _ ih => exact List.mem_cons_of_mem _ ih
  | hole _ _ _ => exact List.mem_append_left _ (mem_placeholder _)

/-- What a placeholder holds occurs in the text. -/
theorem Holds.occurs (h : Holds part t) : part <:+: t := by
  induction h with
  | @here code t _ inside _ =>
      refine inside.trans ⟨['{'], '}' :: t, ?_⟩
      simp [placeholder, Piece.render]
  | plain _ _ ih => exact ih.trans (List.suffix_cons _ _).isInfix
  | hole _ _ ih => exact ih.trans (List.suffix_append _ _).isInfix

-- ============================================================== as pieces

/-- The code is taken out of a placeholder as it was put in. -/
theorem holeInner_placeholder (code : Text) : holeInner (placeholder code) = code := by
  simp [holeInner, placeholder, Piece.render, Text.dropTail?, Text.dropHead?]

/-- Plain characters neither make a placeholder nor take one away. -/
theorem hole_mem_consPlain {c : Char} {hole : Text} {rest : List Chunk} :
    .hole hole ∈ Chunk.consPlain c rest ↔ .hole hole ∈ rest := by
  unfold Chunk.consPlain
  split
  · simp
  · simp

/-- What is held is in one of the placeholders that a text is cut into. -/
theorem Holds.mem_chunks (h : Holds part t) :
    ∃ code, .hole (placeholder code) ∈ chunks t ∧ part <:+: code := by
  induction h with
  | @here code t shut inside _ =>
      refine ⟨code, ?_, inside⟩
      rw [chunks_placeholder shut]
      exact List.mem_cons_self
  | plain known _ ih =>
      obtain ⟨code, hmem, hpart⟩ := ih
      refine ⟨code, ?_, hpart⟩
      rw [chunks_plain known]
      exact hole_mem_consPlain.2 hmem
  | hole shut _ ih =>
      obtain ⟨code, hmem, hpart⟩ := ih
      refine ⟨code, ?_, hpart⟩
      rw [chunks_placeholder shut]
      exact List.mem_cons_of_mem _ hmem

/-- A tidy text without its first character, if that is plain. -/
theorem Holds.tail {c : Char} (hc : c ≠ '{') (h : Holds part (c :: t)) : Holds part t := by
  generalize hall : c :: t = all at h
  cases h with
  | here _ _ _ =>
      rw [placeholder_append] at hall
      exact absurd (List.cons.inj hall).1 hc
  | plain _ rest =>
      cases hall
      exact rest
  | hole _ _ =>
      rw [placeholder_append] at hall
      exact absurd (List.cons.inj hall).1 hc

/-- Or, as pieces of a path, in the code of one of them. -/
theorem Holds.mem_pieces (h : Holds part t) :
    ∃ code, .placeholder code ∈ pieces t ∧ part <:+: code := by
  have hpiece : ∀ {u}, Holds part u →
      ∃ code, .placeholder code ∈ (chunks u).map Chunk.toPiece ∧ part <:+: code := by
    intro u hu
    obtain ⟨code, hmem, hpart⟩ := hu.mem_chunks
    refine ⟨code, List.mem_map.2 ⟨_, hmem, ?_⟩, hpart⟩
    simp only [Chunk.toPiece, holeInner_placeholder]
  unfold pieces
  split
  · obtain ⟨code, hmem, hpart⟩ := hpiece (h.tail (by decide))
    exact ⟨code, List.mem_cons_of_mem _ hmem, hpart⟩
  · exact hpiece h

/-- The placeholders of a tidy text hold sealed code. -/
theorem Tidy.sealed_of_mem_chunks (h : Tidy t) {hole : Text} (hmem : .hole hole ∈ chunks t) :
    Sealed (holeInner hole) := by
  induction h with
  | nil => cases hmem
  | plain known _ ih =>
      rw [chunks_plain known, hole_mem_consPlain] at hmem
      exact ih hmem
  | hole shut _ ih =>
      rw [chunks_placeholder shut] at hmem
      rcases List.mem_cons.1 hmem with heq | hmem
      · cases heq
        rwa [holeInner_placeholder]
      · exact ih hmem

theorem Tidy.tail {c : Char} (hc : c ≠ '{') (h : Tidy (c :: t)) : Tidy t := by
  generalize hall : c :: t = all at h
  cases h with
  | nil => cases hall
  | plain _ rest =>
      cases hall
      exact rest
  | hole _ _ =>
      rw [placeholder_append] at hall
      exact absurd (List.cons.inj hall).1 hc

/-- Every placeholder of a tidy text has sealed code. -/
theorem Tidy.sealed_of_mem_pieces (h : Tidy t) {code : Text}
    (hmem : .placeholder code ∈ pieces t) : Sealed code := by
  have hpiece : ∀ {u}, Tidy u → .placeholder code ∈ (chunks u).map Chunk.toPiece →
      Sealed code := by
    intro u hu hin
    obtain ⟨chunk, hchunk, heq⟩ := List.mem_map.1 hin
    cases chunk with
    | plain text => cases heq
    | hole hole =>
        cases heq
        exact hu.sealed_of_mem_chunks hchunk
  unfold pieces at hmem
  split at hmem
  · exact hpiece (h.tail (by decide)) ((List.mem_cons.1 hmem).resolve_left (by simp))
  · exact hpiece h hmem

/-- Operands are sealed: they are quoted, or the code of a placeholder. -/
theorem sealed_of_mapM_toOperand? {parts : List Piece} {operands : List Text}
    (h : parts.mapM Piece.toOperand? = some operands)
    (hparts : ∀ code, .placeholder code ∈ parts → Sealed code) :
    ∀ code ∈ operands, Sealed code := by
  induction parts generalizing operands with
  | nil =>
      cases h
      exact fun _ hcode => (by cases hcode)
  | cons piece parts ih =>
      rw [List.mapM_cons] at h
      obtain ⟨first, hfirst, h⟩ := Option.bind_eq_some_iff.1 h
      obtain ⟨rest, hrest, h⟩ := Option.bind_eq_some_iff.1 h
      cases h
      intro code hcode
      rcases List.mem_cons.1 hcode with rfl | hcode
      · cases piece with
        | root => cases hfirst
        | literal text =>
            simp only [Piece.toOperand?] at hfirst
            split at hfirst
            · cases hfirst
            · cases hfirst
              exact sealed_quote text
        | placeholder inner =>
            cases hfirst
            exact hparts _ List.mem_cons_self
      · exact ih hrest (fun c hc => hparts c (List.mem_cons_of_mem _ hc)) code hcode

/-- The expression of a tidy text is sealed. -/
theorem Tidy.sealed_of_toExpression? (h : Tidy t) {code : Text}
    (hcode : toExpression? t = some code) : Sealed code := by
  unfold toExpression? at hcode
  split at hcode
  · cases hcode
    exact sealed_quote []
  · obtain ⟨operands, hoperands, rfl⟩ := Option.map_eq_some_iff.1 hcode
    exact sealed_join (by decide)
      (sealed_of_mapM_toOperand? hoperands fun c hc => h.sealed_of_mem_pieces hc)

/-- A tidy text that is one placeholder has sealed code. -/
theorem Tidy.sealed_of_singlePlaceholder? (h : Tidy t) {inner : Text}
    (hinner : singlePlaceholder? t = some inner) : Sealed inner := by
  unfold singlePlaceholder? at hinner
  split at hinner
  · next e hpieces =>
    cases hinner
    refine h.sealed_of_mem_pieces ?_
    rw [hpieces]
    exact List.mem_singleton.2 rfl
  · cases hinner

/-- Every operand of an expression is there. -/
theorem mem_of_mapM_toOperand? {parts : List Piece} {operands : List Text}
    (h : parts.mapM Piece.toOperand? = some operands) {code : Text}
    (hcode : .placeholder code ∈ parts) : code ∈ operands := by
  induction parts generalizing operands with
  | nil => cases hcode
  | cons piece parts ih =>
      rw [List.mapM_cons] at h
      obtain ⟨first, hfirst, h⟩ := Option.bind_eq_some_iff.1 h
      obtain ⟨rest, hrest, h⟩ := Option.bind_eq_some_iff.1 h
      cases h
      rcases List.mem_cons.1 hcode with rfl | hcode
      · cases hfirst
        exact List.mem_cons_self
      · exact List.mem_cons_of_mem _ (ih hrest hcode)

/-- The expression of a text has all that its placeholders hold. -/
theorem Holds.infix_of_toExpression? (h : Holds part t) {code : Text}
    (hcode : toExpression? t = some code) : part <:+: code := by
  obtain ⟨inner, hmem, hpart⟩ := h.mem_pieces
  unfold toExpression? at hcode
  split at hcode
  · next hnil =>
    rw [hnil] at hmem
    cases hmem
  · obtain ⟨operands, hoperands, rfl⟩ := Option.map_eq_some_iff.1 hcode
    exact hpart.trans (Text.infix_join (mem_of_mapM_toOperand? hoperands hmem))

theorem Holds.infix_of_singlePlaceholder? (h : Holds part t) {inner : Text}
    (hinner : singlePlaceholder? t = some inner) : part <:+: inner := by
  obtain ⟨code, hmem, hpart⟩ := h.mem_pieces
  unfold singlePlaceholder? at hinner
  split at hinner
  · next e hpieces =>
    cases hinner
    rw [hpieces, List.mem_singleton] at hmem
    cases hmem
    exact hpart
  · cases hinner

/-- A text that holds something is not literal. -/
theorem Holds.isLiteral_eq_false (h : Holds part t) : isLiteral t = false := by
  obtain ⟨code, hmem, -⟩ := h.mem_pieces
  have hall : (pieces t).all Piece.isLiteral = false := by
    rw [List.all_eq_false]
    exact ⟨_, hmem, by simp [Piece.isLiteral]⟩
  unfold isLiteral
  rw [hall]
  rfl

-- ============================================================ as segments

/-- A plain character goes to the first segment. -/
theorem segments_plain {c : Char} (hopen : c ≠ '{') (hcut : c ≠ '/') {first : Text}
    {more : List Text} (h : segments t = first :: more) :
    segments (c :: t) = (c :: first) :: more := by
  unfold segments at h ⊢
  simp only [segmentsFrom]
  rw [if_neg fun hc => hcut hc.2, Scan.step_outside hopen, h]
  rfl

/-- The segments of a tidy text are tidy. -/
theorem Tidy.segments (h : Tidy t) : ∀ s ∈ segments t, Tidy s := by
  induction h with
  | nil =>
      intro s hs
      rw [List.mem_singleton.1 hs]
      exact .nil
  | @plain c t known _ ih =>
      intro s hs
      by_cases hc : c = '/'
      · subst hc
        rw [segments_cons_slash] at hs
        rcases List.mem_cons.1 hs with rfl | hs
        · exact .nil
        · exact ih s hs
      · obtain ⟨first, more, hsegs⟩ := List.exists_cons_of_ne_nil (segments_ne_nil t)
        rw [segments_plain known hc hsegs] at hs
        rw [hsegs] at ih
        rcases List.mem_cons.1 hs with rfl | hs
        · exact .plain known (ih first List.mem_cons_self)
        · exact ih s (List.mem_cons_of_mem _ hs)
  | @hole code t shut _ ih =>
      intro s hs
      obtain ⟨first, more, hsegs⟩ := List.exists_cons_of_ne_nil (segments_ne_nil t)
      rw [segments_placeholder shut hsegs] at hs
      rw [hsegs] at ih
      rcases List.mem_cons.1 hs with rfl | hs
      · exact .hole shut (ih first List.mem_cons_self)
      · exact ih s (List.mem_cons_of_mem _ hs)

/-- What a text holds is held by one of its segments. -/
theorem Holds.exists_segment (h : Holds part t) : ∃ s ∈ segments t, Holds part s := by
  induction h with
  | @here code t shut inside rest =>
      obtain ⟨first, more, hsegs⟩ := List.exists_cons_of_ne_nil (segments_ne_nil t)
      have hfirst : Tidy first := rest.segments first (by rw [hsegs]; exact List.mem_cons_self)
      rw [segments_placeholder shut hsegs]
      exact ⟨_, List.mem_cons_self, .here shut inside hfirst⟩
  | @plain c t known rest ih =>
      obtain ⟨s, hs, hholds⟩ := ih
      by_cases hc : c = '/'
      · subst hc
        rw [segments_cons_slash]
        exact ⟨s, List.mem_cons_of_mem _ hs, hholds⟩
      · obtain ⟨first, more, hsegs⟩ := List.exists_cons_of_ne_nil (segments_ne_nil t)
        rw [segments_plain known hc hsegs]
        rw [hsegs] at hs
        rcases List.mem_cons.1 hs with rfl | hs
        · exact ⟨_, List.mem_cons_self, .plain known hholds⟩
        · exact ⟨s, List.mem_cons_of_mem _ hs, hholds⟩
  | @hole code t shut rest ih =>
      obtain ⟨s, hs, hholds⟩ := ih
      obtain ⟨first, more, hsegs⟩ := List.exists_cons_of_ne_nil (segments_ne_nil t)
      rw [segments_placeholder shut hsegs]
      rw [hsegs] at hs
      rcases List.mem_cons.1 hs with rfl | hs
      · exact ⟨_, List.mem_cons_self, .hole shut hholds⟩
      · exact ⟨s, List.mem_cons_of_mem _ hs, hholds⟩

/-- Tidy segments join to a tidy path. -/
theorem tidy_joinSlash {parts : List Text} (h : ∀ s ∈ parts, Tidy s) :
    Tidy (Text.joinSlash parts) := by
  induction parts with
  | nil => exact .nil
  | cons s parts ih =>
      have hs := h s List.mem_cons_self
      have hrest := ih fun u hu => h u (List.mem_cons_of_mem _ hu)
      by_cases hp : parts = []
      · subst hp
        rwa [Text.joinSlash_singleton]
      · rw [Text.joinSlash_cons s hp]
        exact hs.append (.plain (by decide) hrest)

/-- What one of the segments holds is held by the path they join to. -/
theorem holds_joinSlash {parts : List Text} (h : ∀ s ∈ parts, Tidy s) {s : Text}
    (hs : s ∈ parts) (hholds : Holds part s) : Holds part (Text.joinSlash parts) := by
  induction parts with
  | nil => cases hs
  | cons first parts ih =>
      have hfirst := h first List.mem_cons_self
      have hrest : ∀ u ∈ parts, Tidy u := fun u hu => h u (List.mem_cons_of_mem _ hu)
      by_cases hp : parts = []
      · subst hp
        rw [List.mem_singleton] at hs
        rwa [Text.joinSlash_singleton, ← hs]
      · rw [Text.joinSlash_cons first hp]
        rcases List.mem_cons.1 hs with rfl | hs
        · exact hholds.append (.plain (by decide) (tidy_joinSlash hrest))
        · exact .after hfirst (.plain (by decide) (ih hrest hs))

/-- A segment that holds something is a proper one. -/
theorem Holds.mem_properSegments (h : Holds part u) (hmem : u ∈ segments t) :
    u ∈ properSegments t :=
  Symbolic.mem_properSegments.2 ⟨hmem, List.ne_nil_of_mem h.mem_brace⟩

-- =============================================================== collapsing

theorem mem_dropEmptyTop {s : Text} (hs : s ≠ []) {stack : List Text} (h : s ∈ stack) :
    s ∈ dropEmptyTop stack := by
  fun_induction dropEmptyTop stack with
  | case1 below rest ih =>
      refine ih ?_
      rcases List.mem_cons.1 h with rfl | h
      · exact absurd rfl hs
      · exact h
  | case2 stack _ => exact h

/-- A step never consumes a segment with a placeholder, and pushes it. -/
theorem mem_pushSegment {s u : Text} (hs : '{' ∈ s) {stack : List Text}
    (h : s = u ∨ s ∈ stack) : s ∈ pushSegment stack u := by
  have hne : s ≠ [] := List.ne_nil_of_mem hs
  have hdot : s ≠ "." := fun heq => absurd (heq ▸ hs) (by decide)
  have hup : s ≠ ".." := fun heq => absurd (heq ▸ hs) (by decide)
  unfold pushSegment
  split
  · next hu => exact h.resolve_left fun heq => hdot (heq.trans hu)
  · split
    · next hu =>
      have htop := mem_dropEmptyTop hne (h.resolve_left fun heq => hup (heq.trans hu))
      unfold goUp
      split
      · next hnil =>
        rw [hnil] at htop
        cases htop
      · next top below hstack =>
        rw [hstack] at htop
        split
        · next hpop =>
          -- what is consumed has no placeholder
          refine (List.mem_cons.1 htop).resolve_left ?_
          rintro rfl
          simp [isPoppable, hs] at hpop
        · exact List.mem_cons_of_mem _ htop
    · rcases h with rfl | h
      · exact List.mem_cons_self
      · exact List.mem_cons_of_mem _ h

/-- A segment with a placeholder is there to the end. -/
theorem mem_foldl_pushSegment {s : Text} (hs : '{' ∈ s) {rest stack : List Text}
    (h : s ∈ rest ∨ s ∈ stack) : s ∈ rest.foldl pushSegment stack := by
  induction rest generalizing stack with
  | nil => exact h.resolve_left fun h => (by cases h)
  | cons u rest ih =>
      refine ih ?_
      rcases h with h | h
      · rcases List.mem_cons.1 h with rfl | h
        · exact Or.inr (mem_pushSegment hs (Or.inl rfl))
        · exact Or.inl h
      · exact Or.inr (mem_pushSegment hs (Or.inr h))

/-- Collapsing keeps every segment with a placeholder. -/
theorem mem_collapseSegments {s : Text} (hs : '{' ∈ s) {all : List Text} (h : s ∈ all) :
    s ∈ collapseSegments all := by
  cases all with
  | nil => cases h
  | cons first rest =>
      unfold collapseSegments
      rw [List.mem_reverse]
      refine mem_foldl_pushSegment hs ?_
      rcases List.mem_cons.1 h with rfl | h
      · exact Or.inr List.mem_cons_self
      · exact Or.inl h

theorem Tidy.collapseDots (h : Tidy t) : Tidy (collapseDots t) :=
  tidy_joinSlash fun s hs => h.segments s ((collapseSegments_sublist _).subset hs)

/-- What a path holds it holds when its dots are collapsed. -/
theorem Holds.collapseDots (h : Holds part t) : Holds part (collapseDots t) := by
  obtain ⟨s, hs, hholds⟩ := h.exists_segment
  refine holds_joinSlash ?_ (mem_collapseSegments hholds.mem_brace hs) hholds
  exact fun u hu => h.tidy.segments u ((collapseSegments_sublist _).subset hu)

theorem mem_of_mem_trimSlashes {c : Char} (hc : c ∈ Text.trimSlashes t) : c ∈ t := by
  unfold Text.trimSlashes Text.trimWhile Text.dropEndWhile at hc
  rw [List.mem_reverse] at hc
  have hback := (List.dropWhile_sublist _).subset hc
  rw [List.mem_reverse] at hback
  exact (List.dropWhile_sublist _).subset hback

/-- Anchoring puts plain text in front, and collapsing keeps what is held. -/
theorem Holds.normalize (h : Holds part t) {dir : Text} (hdir : '{' ∉ dir) :
    Holds part (normalize t dir) := by
  have hne : t.isEmpty = false := by
    cases t with
    | nil => exact absurd h.mem_brace (by simp)
    | cons c t => rfl
  unfold Symbolic.normalize
  rw [hne, if_neg (by simp)]
  refine Holds.collapseDots ?_
  unfold anchor
  split
  · exact h
  · split
    · exact .after (tidy_of_not_mem (by decide)) (.plain (by decide) h)
    · split
      · exact .plain (by decide) (.plain (by decide) h)
      · have htrim : '{' ∉ Text.trimSlashes dir := fun hmem =>
          hdir (mem_of_mem_trimSlashes hmem)
        refine .plain (by decide) (.plain (by decide) ?_)
        exact .after (tidy_of_not_mem htrim) (.plain (by decide) h)

-- =============================================================== going up

/-- A separator at the end is not a part of a placeholder. -/
theorem Tidy.of_append_slash (h : Tidy (t ++ ['/'])) : Tidy t := by
  rw [tidy_iff_closed] at h ⊢
  unfold Closed at h ⊢
  rw [Scan.run_append] at h
  by_cases hrun : Scan.outside.run t = .outside
  · exact hrun
  · -- a separator does not lead out of a placeholder
    exact absurd (Scan.eq_of_step_outside hrun h).2 (by decide)

/-- A text whose last character was taken off had it. -/
theorem eq_of_dropTail? {c : Char} (h : Text.dropTail? [c] t = some u) : t = u ++ [c] := by
  unfold Text.dropTail? at h
  obtain ⟨back, hback, rfl⟩ := Option.map_eq_some_iff.1 h
  cases hrev : t.reverse with
  | nil =>
      rw [hrev] at hback
      cases hback
  | cons d rest =>
      rw [hrev] at hback
      simp only [List.reverse_singleton, Text.dropHead?] at hback
      split at hback
      · next hcd =>
        cases hback
        rw [← List.reverse_reverse t, hrev, List.reverse_cons, hcd]
      · cases hback

/-- What is left of a tidy path above its last segment is tidy. -/
theorem Tidy.dropLastSegment? (h : Tidy t) {left : Text}
    (hleft : dropLastSegment? t = some left) : Tidy left := by
  have htrim : Tidy (if t.length > 1 then (Text.dropTail? ['/'] t).getD t else t) := by
    split
    · cases hdrop : Text.dropTail? ['/'] t with
      | none => exact h
      | some trimmed =>
          rw [eq_of_dropTail? hdrop] at h
          exact h.of_append_slash
    · exact h
  unfold Symbolic.dropLastSegment? at hleft
  dsimp only at hleft
  generalize (if t.length > 1 then (Text.dropTail? ['/'] t).getD t else t) = trimmed
    at htrim hleft
  have hkept : Tidy (Text.joinSlash (Symbolic.segments trimmed).dropLast) :=
    tidy_joinSlash fun s hs => htrim.segments s (List.dropLast_subset _ hs)
  split at hleft
  · cases hleft
  · cases hleft
  · cases hleft
    split
    · exact tidy_of_not_mem (by decide)
    · exact hkept

end ComponentPaths.Symbolic
