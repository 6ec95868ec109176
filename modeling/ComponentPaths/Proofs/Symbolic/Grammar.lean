/-
The grammar of symbolic paths, read and written.

Every text is read in one way. It is made of plain characters and of
placeholders that hold balanced code, and at its end there may be one
placeholder that is never closed. `Spelled` says this of a text, and every
text has it (`spelled`), so a law about reading is proved by going through
the four cases. Both readers follow it: pieces are the plain runs and the
placeholders, and segments are cut between them only.

Three laws come out of it. Written again, the pieces are the text, but for
the brace that an unclosed placeholder lacks (`gather_render`). The
placeholders of a path are those of its segments, in order
(`expressions_segments`). And a list of pieces that could have been read is
read back from its written form (`pieces_flatMap_render`).
-/
import Mathlib.Data.List.Basic
import ComponentPaths.Proofs.Symbolic.Balanced

namespace ComponentPaths.Symbolic

variable {t u code : Text}

-- =============================================================== spelling

/-- How a text is read. -/
inductive Spelled : Text → Prop
  | nil : Spelled []
  | plain {c : Char} {t : Text} (known : c ≠ '{') (rest : Spelled t) : Spelled (c :: t)
  | hole {code t : Text} (shut : Balanced code) (rest : Spelled t) :
      Spelled (placeholder code ++ t)
  /-- A placeholder that is never closed is the rest of the text. -/
  | unclosed {tail : Text} {last : Scan} (within : Scan.inside (.code 0) tail = some last) :
      Spelled ('{' :: tail)

/-- Where a scan leaves its placeholder, it does so after sealed code. -/
theorem exists_sealed_of_inside {scan : Scan} (hscan : scan ≠ .outside)
    (h : scan.inside t = none) :
    ∃ code rest, t = code ++ '}' :: rest ∧ scan.inside code = some (.code 0) := by
  induction t generalizing scan with
  | nil => cases h
  | cons c t ih =>
      by_cases hout : scan.step c = .outside
      · obtain ⟨rfl, rfl⟩ := Scan.eq_of_step_outside hscan hout
        exact ⟨[], t, rfl, rfl⟩
      · rw [Scan.inside_cons rfl hout] at h
        obtain ⟨code, rest, rfl, hcode⟩ := ih hout h
        refine ⟨c :: code, rest, rfl, ?_⟩
        rw [Scan.inside_cons rfl hout, hcode]

/-- Every text is spelled. -/
theorem spelled (t : Text) : Spelled t := by
  -- a placeholder is taken off at once, so the induction is on the length
  induction hn : t.length using Nat.strongRecOn generalizing t with
  | ind n ih =>
      cases t with
      | nil => exact .nil
      | cons c t =>
          rw [List.length_cons] at hn
          by_cases hc : c = '{'
          · subst hc
            cases hinside : Scan.inside (.code 0) t with
            | some last => exact .unclosed hinside
            | none =>
                obtain ⟨code, rest, rfl, hcode⟩ := exists_sealed_of_inside (by simp) hinside
                rw [List.length_append, List.length_cons] at hn
                have hrest := ih rest.length (by omega) rest rfl
                have hhole := Spelled.hole (balanced_of_sealed hcode) hrest
                rwa [placeholder_append] at hhole
          · exact .plain hc (ih t.length (by omega) t rfl)

-- ========================================================== unclosed ends

/-- Inside of a placeholder that is not closed, there is no other chunk. -/
theorem chunksFrom_unclosed {scan last : Scan} (h : scan.inside t = some last) (hne : t ≠ []) :
    chunksFrom scan t = [.hole t] := by
  induction t generalizing scan with
  | nil => exact absurd rfl hne
  | cons c t ih =>
      unfold Scan.inside at h
      split at h
      · cases h
      · next hin =>
        rw [chunksFrom_inside hin]
        by_cases ht : t = []
        · subst ht
          rfl
        · rw [ih h ht]
          rfl

/-- A placeholder that is never closed is one chunk to the end, -/
theorem chunks_unclosed {tail : Text} {last : Scan}
    (h : Scan.inside (.code 0) tail = some last) :
    chunks ('{' :: tail) = [.hole ('{' :: tail)] := by
  have hopen : Scan.outside.step '{' = .code 0 := rfl
  unfold chunks
  rw [chunksFrom_inside (by rw [hopen]; simp), hopen]
  by_cases htail : tail = []
  · subst htail
    rfl
  · rw [chunksFrom_unclosed h htail]
    rfl

/-- No separator cuts a placeholder that is not closed. -/
theorem segmentsFrom_unclosed {scan last : Scan} (hscan : scan ≠ .outside)
    (h : scan.inside t = some last) : segmentsFrom scan t = [t] := by
  induction t generalizing scan with
  | nil => rfl
  | cons c t ih =>
      unfold Scan.inside at h
      split at h
      · cases h
      · next hin =>
        rw [segmentsFrom_inside hscan, ih hin h]
        rfl

/-- and one segment. -/
theorem segments_unclosed {tail : Text} {last : Scan}
    (h : Scan.inside (.code 0) tail = some last) :
    segments ('{' :: tail) = ['{' :: tail] := by
  have hopen : Scan.outside.step '{' = .code 0 := rfl
  unfold segments
  simp only [segmentsFrom]
  rw [if_neg (by simp), hopen, segmentsFrom_unclosed (by simp) h]
  rfl

/-- A scan that stays inside of a placeholder does not end outside. -/
theorem Scan.ne_outside_of_inside {scan last : Scan} (hscan : scan ≠ .outside)
    (h : scan.inside t = some last) : last ≠ .outside := by
  induction t generalizing scan with
  | nil =>
      cases h
      exact hscan
  | cons c t ih =>
      unfold Scan.inside at h
      split at h
      · cases h
      · next hin => exact ih hin h

theorem not_closed_of_inside {tail : Text} {last : Scan}
    (h : Scan.inside (.code 0) tail = some last) : ¬Closed ('{' :: tail) := by
  intro hclosed
  have hrun : (Scan.code 0).run tail = .outside := hclosed
  rw [Scan.run_of_inside h] at hrun
  exact Scan.ne_outside_of_inside (by simp) h hrun

/-- A plain character in front does not matter. -/
theorem closed_cons {c : Char} (hc : c ≠ '{') : Closed (c :: t) ↔ Closed t := by
  unfold Closed
  rw [Scan.run_cons, Scan.step_outside hc]

theorem closed_placeholder_append (h : Balanced code) :
    Closed (placeholder code ++ t) ↔ Closed t := by
  have hhole : Scan.outside.run (placeholder code) = .outside := closed_placeholder h.sealed
  unfold Closed
  rw [Scan.run_append, hhole]

-- ======================================================== piece by piece

/-- A reading of pieces that takes literals character by character, and the root
for the character that it is written with. -/
structure Charwise {α : Type} (f : Piece → List α) : Prop where
  root : f .root = f (.literal ['@'])
  literal : ∀ c t, f (.literal (c :: t)) = f (.literal [c]) ++ f (.literal t)

/-- A reading of a path, piece by piece. -/
def gather {α : Type} (f : Piece → List α) (path : Text) : List α :=
  (pieces path).flatMap f

namespace Charwise

variable {α : Type} {f : Piece → List α} (h : Charwise f)

include h

theorem flatMap_consPlain (c : Char) (rest : List Chunk) :
    ((Chunk.consPlain c rest).map Chunk.toPiece).flatMap f
      = f (.literal [c]) ++ (rest.map Chunk.toPiece).flatMap f := by
  unfold Chunk.consPlain
  split
  · next text rest =>
    rw [List.map_cons, List.map_cons, List.flatMap_cons, List.flatMap_cons, ← List.append_assoc]
    exact congrArg (· ++ _) (h.literal c text)
  · rfl

/-- It makes no difference that the root is a piece of its own. -/
theorem gather_eq (t : Text) : gather f t = ((chunks t).map Chunk.toPiece).flatMap f := by
  unfold gather pieces
  split
  · next rest => rw [chunks_plain (by decide), h.flatMap_consPlain, List.flatMap_cons, h.root]
  · rfl

/-- Pieces are gathered character by character, -/
theorem gather_plain {c : Char} (hc : c ≠ '{') (t : Text) :
    gather f (c :: t) = f (.literal [c]) ++ gather f t := by
  rw [h.gather_eq, h.gather_eq, chunks_plain hc, h.flatMap_consPlain]

/-- placeholder by placeholder, -/
theorem gather_placeholder (hcode : Balanced code) (t : Text) :
    gather f (placeholder code ++ t) = f (.placeholder code) ++ gather f t := by
  rw [h.gather_eq, h.gather_eq, chunks_placeholder hcode.sealed, List.map_cons,
    List.flatMap_cons, Chunk.toPiece, holeInner_placeholder]

/-- and up to the end of the text if a placeholder is not closed. -/
theorem gather_unclosed {tail : Text} {last : Scan}
    (hin : Scan.inside (.code 0) tail = some last) :
    gather f ('{' :: tail) = f (.placeholder (holeInner ('{' :: tail))) := by
  rw [h.gather_eq, chunks_unclosed hin]
  exact List.append_nil _

/-- A reading that leaves out separators can be done segment by segment. -/
theorem gather_segments (hslash : f (.literal ['/']) = []) (t : Text) :
    gather f t = (segments t).flatMap (gather f) := by
  induction spelled t with
  | nil => rfl
  | @plain c t known _ ih =>
      by_cases hc : c = '/'
      · subst hc
        rw [segments_cons_slash, h.gather_plain known, hslash, ih]
        rfl
      · obtain ⟨first, more, hsegs⟩ := List.exists_cons_of_ne_nil (segments_ne_nil t)
        rw [segments_plain known hc hsegs, h.gather_plain known, ih, hsegs, List.flatMap_cons,
          List.flatMap_cons, h.gather_plain known, List.append_assoc]
  | @hole code t shut _ ih =>
      obtain ⟨first, more, hsegs⟩ := List.exists_cons_of_ne_nil (segments_ne_nil t)
      rw [segments_placeholder shut.sealed hsegs, h.gather_placeholder shut, ih, hsegs,
        List.flatMap_cons, List.flatMap_cons, h.gather_placeholder shut, List.append_assoc]
  | @unclosed tail last within =>
      rw [segments_unclosed within, List.flatMap_singleton]

end Charwise

/-- The expression of a piece that is a placeholder. -/
def Piece.expression? : Piece → Option Text
  | .placeholder e => some e
  | _ => none

/-- The placeholders of a path are those of its segments. -/
theorem expressions_segments (t : Text) :
    (pieces t).filterMap Piece.expression?
      = (segments t).flatMap fun s => (pieces s).filterMap Piece.expression? := by
  have hcharwise : Charwise fun piece => (Piece.expression? piece).toList :=
    ⟨rfl, fun _ _ => rfl⟩
  simp only [List.filterMap_eq_flatMap_toList]
  exact hcharwise.gather_segments rfl t

-- ========================================================== written again

/-- The brace that a text lacks at its end: one that is not closed and does not
happen to end in a brace. -/
def lacking (t : Text) : Text :=
  if Closed t ∨ t.getLast? = some '}' then [] else ['}']

theorem lacking_of_closed (h : Closed t) : lacking t = [] :=
  if_pos (Or.inl h)

/-- What comes before the last placeholder has no part in it. -/
theorem lacking_append (hclosed : Closed (t ++ u) ↔ Closed u) : lacking (t ++ u) = lacking u := by
  cases u with
  | nil =>
      have hnil : Closed [] := rfl
      rw [lacking_of_closed (hclosed.2 hnil), lacking_of_closed hnil]
  | cons c u =>
      have hlast : (t ++ c :: u).getLast? = (c :: u).getLast? := by
        rw [List.getLast?_append, List.getLast?_cons]
        rfl
      unfold lacking
      simp only [hclosed, hlast]

/-- A placeholder that is not closed is written with the brace it lacks. -/
theorem render_holeInner {tail : Text} (h : ¬Closed ('{' :: tail)) :
    (Piece.placeholder (holeInner ('{' :: tail))).render
      = '{' :: tail ++ lacking ('{' :: tail) := by
  have hinner : holeInner ('{' :: tail) = (Text.dropTail? ['}'] tail).getD tail := rfl
  rw [hinner]
  cases hdrop : Text.dropTail? ['}'] tail with
  | some body =>
      have htail := eq_of_dropTail? hdrop
      have hlast : ('{' :: tail).getLast? = some '}' := by
        rw [htail, ← List.cons_append, List.getLast?_concat]
      rw [lacking, if_pos (Or.inr hlast), List.append_nil, htail]
      rfl
  | none =>
      have hlast : ('{' :: tail).getLast? ≠ some '}' := by
        intro hlast
        rcases List.eq_nil_or_concat tail with rfl | ⟨body, last, rfl⟩
        · simp at hlast
        · rw [List.concat_eq_append, ← List.cons_append, List.getLast?_concat] at hlast
          cases hlast
          simp [Text.dropTail?, Text.dropHead?] at hdrop
      rw [lacking, if_neg (not_or.2 ⟨h, hlast⟩)]
      rfl

theorem charwise_render : Charwise Piece.render :=
  ⟨rfl, fun _ _ => rfl⟩

/-- Written again, the pieces of a path are the path, with the brace that a
placeholder at its end may lack. -/
theorem gather_render (t : Text) : gather Piece.render t = t ++ lacking t := by
  induction spelled t with
  | nil => rfl
  | @plain c t known _ ih =>
      have hlacking : lacking ([c] ++ t) = lacking t := lacking_append (closed_cons known)
      rw [charwise_render.gather_plain known, ih, ← List.append_assoc, ← hlacking]
      rfl
  | @hole code t shut _ ih =>
      rw [charwise_render.gather_placeholder shut, ih,
        lacking_append (closed_placeholder_append shut), List.append_assoc]
      rfl
  | @unclosed tail last within =>
      rw [charwise_render.gather_unclosed within, render_holeInner (not_closed_of_inside within)]

-- ============================================================== read back

/-- Pieces that can be found again one after another: literals that are neither
empty nor next to each other, and closed placeholders. -/
inductive Distinct : List Piece → Prop
  | nil : Distinct []
  | literal {text : Text} {parts : List Piece} (nonempty : text ≠ []) (plain : '{' ∉ text)
      (apart : ∀ other, parts.head? ≠ some (.literal other)) (rest : Distinct parts) :
      Distinct (.literal text :: parts)
  | placeholder {e : Text} {parts : List Piece} (shut : Balanced e) (rest : Distinct parts) :
      Distinct (.placeholder e :: parts)

/-- Lists of pieces as they are read: the root at most at the start, and without
it no literal that could be taken for it. -/
inductive Canonical : List Piece → Prop
  | rooted {parts : List Piece} (rest : Distinct parts) : Canonical (.root :: parts)
  | rootless {parts : List Piece} (rest : Distinct parts)
      (known : ∀ text, parts.head? ≠ some (.literal ('@' :: text))) : Canonical parts

/-- A literal before what is no literal is a chunk. -/
theorem chunks_literal_append (hne : t ≠ []) (ht : '{' ∉ t)
    (hu : ∀ text rest, chunks u ≠ .plain text :: rest) :
    chunks (t ++ u) = .plain t :: chunks u := by
  induction t with
  | nil => exact absurd rfl hne
  | cons c t ih =>
      rw [List.mem_cons, not_or] at ht
      rw [List.cons_append, chunks_plain (Ne.symm ht.1)]
      by_cases hnil : t = []
      · subst hnil
        rw [List.nil_append]
        unfold Chunk.consPlain
        split
        · next text rest heq => exact absurd heq (hu text rest)
        · rfl
      · rw [ih hnil ht.2]
        rfl

/-- Pieces that are told apart come back from their text. -/
theorem toPiece_chunks_flatMap_render {parts : List Piece} (h : Distinct parts) :
    (chunks (parts.flatMap Piece.render)).map Chunk.toPiece = parts := by
  induction h with
  | nil => rfl
  | @placeholder e parts shut _ ih =>
      show (chunks (placeholder e ++ parts.flatMap Piece.render)).map Chunk.toPiece = _
      rw [chunks_placeholder shut.sealed, List.map_cons, ih, Chunk.toPiece, holeInner_placeholder]
  | @literal text parts nonempty plain apart _ ih =>
      -- the next piece is no literal, so what follows starts with no plain chunk
      have hnext : ∀ other rest, chunks (parts.flatMap Piece.render) ≠ .plain other :: rest := by
        intro other rest heq
        rw [heq, List.map_cons] at ih
        exact apart other (by rw [← ih]; rfl)
      show (chunks (text ++ parts.flatMap Piece.render)).map Chunk.toPiece = _
      rw [chunks_literal_append nonempty plain hnext, List.map_cons, ih]
      rfl

/-- Without the root, no written form starts like it. -/
theorem Distinct.ne_root {parts : List Piece} (h : Distinct parts)
    (known : ∀ text, parts.head? ≠ some (.literal ('@' :: text))) (rest : Text) :
    parts.flatMap Piece.render ≠ '@' :: rest := by
  intro heq
  cases h with
  | nil => cases heq
  | placeholder _ _ => cases heq
  | @literal text parts nonempty _ _ _ =>
      cases text with
      | nil => exact nonempty rfl
      | cons c text =>
          obtain ⟨rfl, -⟩ := List.cons.inj heq
          exact known text rfl

/-- A list of pieces that could have been read is read back. -/
theorem pieces_flatMap_render {parts : List Piece} (h : Canonical parts) :
    pieces (parts.flatMap Piece.render) = parts := by
  cases h with
  | @rooted parts rest =>
      show Piece.root :: (chunks (parts.flatMap Piece.render)).map Chunk.toPiece = _
      rw [toPiece_chunks_flatMap_render rest]
  | rootless rest known =>
      unfold pieces
      split
      · next tail heq => exact absurd heq (rest.ne_root known tail)
      · exact toPiece_chunks_flatMap_render rest

/-- Reading is unambiguous. Every path is its pieces written one after another,
but for the closing brace that its last placeholder may lack, and its segments
with separators between them. Segments are not cut further, and have the
placeholders of the path, in order. And every list of pieces that has the form
of what is read is read back from its written form. -/
theorem grammar_unambiguous :
    (∀ path : Text,
      ((pieces path).flatMap Piece.render
        = if Closed path ∨ path.getLast? = some '}' then path else path ++ ['}'])
      ∧ Text.joinSlash (segments path) = path
      ∧ (∀ s ∈ segments path, segments s = [s])
      ∧ (pieces path).filterMap Piece.expression?
        = (segments path).flatMap fun s => (pieces s).filterMap Piece.expression?)
    ∧ ∀ parts, Canonical parts → pieces (parts.flatMap Piece.render) = parts := by
  refine ⟨fun path => ⟨?_, joinSlash_segments path, (segmented_segments path).whole,
    expressions_segments path⟩, fun parts => pieces_flatMap_render⟩
  have hwritten : (pieces path).flatMap Piece.render = path ++ lacking path := gather_render path
  rw [hwritten]
  unfold lacking
  split
  · exact List.append_nil path
  · rfl

/-- The pieces of a path with braces in a quote and in a brace of its own. -/
def quotedBraces : List Piece :=
  [.root, .literal "/lib/", .placeholder "f('\x7d', \"\\\"\x7b\")", .placeholder "$a->\x7b$b\x7d",
    .literal ".php"]

theorem canonical_quotedBraces : Canonical quotedBraces :=
  .rooted (.literal (by decide) (by decide) (by simp)
    (.placeholder (by decide) (.placeholder (by decide)
      (.literal (by decide) (by decide) (by simp) .nil))))

theorem grammar_unambiguous_quotedBraces :
    pieces "@/lib/\x7bf('\x7d', \"\\\"\x7b\")\x7d\x7b$a->\x7b$b\x7d\x7d.php" = quotedBraces
    ∧ (pieces "@/\x7b$a/b").flatMap Piece.render = "@/\x7b$a/b\x7d" := by
  obtain ⟨hwritten, hread⟩ := grammar_unambiguous
  refine ⟨hread quotedBraces canonical_quotedBraces, ?_⟩
  rw [(hwritten "@/\x7b$a/b").1]
  decide

end ComponentPaths.Symbolic
