/-
What generated expressions denote.

A fragment of a path becomes code: its literals are quoted, the expressions
of its placeholders are taken over, and the operands are joined. Code has a
meaning of its own, so this can be wrong in two ways. A quoted literal can
end too early, too late, or stand for another text; `readLiteral?` is how
the language reads one, and it gives back what was quoted, whatever comes
after the literal (`readLiteral?_quote`). And operands can get lost or out
of order. `Filled` says what the fragment is when its placeholders have
values, and `evaluate?` what the operands are when the expressions have
them. The two agree for all values (`expression_denotes`).

Only the root has no code: a fragment that starts with it, or names it in
literal text, has no expression (`toExpression?_eq`).
-/
import Mathlib.Data.List.Forall2
import ComponentPaths.Proofs.Symbolic.Grammar

namespace ComponentPaths.Symbolic

-- ========================================================= quoted literals

/-- The text of a single-quoted literal from its opening mark on, and what
follows the literal. A backslash escapes itself and the mark, and before
anything else it is a character like any other. -/
def readQuoted? : Text → Option (Text × Text)
  | [] => none
  | '\'' :: after => some ([], after)
  | '\\' :: '\\' :: rest => (readQuoted? rest).map fun (t, after) => ('\\' :: t, after)
  | '\\' :: '\'' :: rest => (readQuoted? rest).map fun (t, after) => ('\'' :: t, after)
  | c :: rest => (readQuoted? rest).map fun (t, after) => (c :: t, after)

/-- The text of the single-quoted literal that code starts with, and the code
after it. -/
def readLiteral? : Text → Option (Text × Text)
  | '\'' :: body => readQuoted? body
  | _ => none

/-- An escaped character is read as that character. -/
theorem readQuoted?_quoteChar (c : Char) (rest : Text) :
    readQuoted? (quoteChar c ++ rest)
      = (readQuoted? rest).map fun (t, after) => (c :: t, after) := by
  by_cases hback : c = '\\'
  · subst hback
    rfl
  · by_cases hmark : c = '\''
    · subst hmark
      rfl
    · simp [quoteChar, readQuoted?, hback, hmark]

/-- Escaped text is read up to the quote after it. -/
theorem readQuoted?_flatMap (t rest : Text) :
    readQuoted? (t.flatMap quoteChar ++ '\'' :: rest) = some (t, rest) := by
  induction t with
  | nil => rfl
  | cons c t ih =>
      rw [List.flatMap_cons, List.append_assoc, readQuoted?_quoteChar, ih]
      rfl

/-- A quoted text is read back, and the literal ends where the quote does. -/
theorem readLiteral?_quote (t rest : Text) : readLiteral? (quote t ++ rest) = some (t, rest) := by
  have hquote : quote t ++ rest = '\'' :: (t.flatMap quoteChar ++ '\'' :: rest) := by
    rw [quote_eq_flatMap]
    simp
  rw [hquote]
  exact readQuoted?_flatMap t rest

-- =============================================================== operands

/-- An operand of a concatenation. -/
inductive Operand where
  | literal (code : Text)
  | expression (code : Text)
  deriving DecidableEq, Repr

namespace Operand

/-- The code of an operand. -/
def code : Operand → Text
  | .literal code => code
  | .expression code => code

/-- The value of an operand: of a literal, the text that it is read as. -/
def value? (value : Text → Text) : Operand → Option Text
  | .literal code =>
    match readLiteral? code with
    | some (t, []) => some t
    | _ => none
  | .expression code => some (value code)

/-- Whether an operand is the one for a piece. -/
def IsFor : Operand → Piece → Prop
  | .literal code, .literal t => readLiteral? code = some (t, [])
  | .expression code, .placeholder e => code = e
  | _, _ => False

end Operand

/-- The value of a concatenation. -/
def evaluate? (value : Text → Text) (operands : List Operand) : Option Text :=
  (operands.mapM (Operand.value? value)).map List.flatten

/-- A fragment, and what it is when its placeholders have values. -/
inductive Filled (value : Text → Text) : (fragment whole : Text) → Prop
  | nil : Filled value [] []
  | plain {c : Char} {t u : Text} (known : c ≠ '{') (rest : Filled value t u) :
      Filled value (c :: t) (c :: u)
  | hole {code t u : Text} (shut : Balanced code) (rest : Filled value t u) :
      Filled value (placeholder code ++ t) (value code ++ u)

namespace Piece

/-- Whether a piece is the root, or text that names it. -/
def mentionsRoot : Piece → Bool
  | .root => true
  | .literal t => t.contains '@'
  | .placeholder _ => false

/-- A piece when the placeholders have values. -/
def filled (value : Text → Text) : Piece → Text
  | .placeholder e => value e
  | piece => piece.render

/-- The operand for a piece. -/
def operand : Piece → Operand
  | .placeholder e => .expression e
  | piece => .literal (quote piece.render)

end Piece

-- ======================================================== filled fragments

section Filling

variable (value : Text → Text)

theorem charwise_filled : Charwise (Piece.filled value) :=
  ⟨rfl, fun _ _ => rfl⟩

/-- A closed text is filled piece by piece. -/
theorem filled_gather {t : Text} (h : Closed t) :
    Filled value t (gather (Piece.filled value) t) := by
  have hcharwise := charwise_filled value
  induction spelled t with
  | nil => exact .nil
  | plain known _ ih =>
      rw [hcharwise.gather_plain known]
      exact .plain known (ih ((closed_cons known).1 h))
  | hole shut _ ih =>
      rw [hcharwise.gather_placeholder shut]
      exact .hole shut (ih ((closed_placeholder_append shut).1 h))
  | unclosed within => exact absurd h (not_closed_of_inside within)

/-- A closed fragment is filled in one way, piece by piece. -/
theorem filled_iff {t u : Text} (h : Closed t) :
    Filled value t u ↔ u = gather (Piece.filled value) t := by
  have hcharwise := charwise_filled value
  constructor
  · intro hfilled
    clear h
    induction hfilled with
    | nil => rfl
    | plain known _ ih =>
        rw [hcharwise.gather_plain known, ih]
        rfl
    | hole shut _ ih =>
        rw [hcharwise.gather_placeholder shut, ih]
        rfl
  · rintro rfl
    exact filled_gather value h

end Filling

-- ============================================================= expressions

/-- A piece has an operand unless it mentions the root. -/
theorem Piece.toOperand?_eq (piece : Piece) :
    piece.toOperand? = if piece.mentionsRoot then none else some piece.operand.code := by
  cases piece <;> rfl

/-- Pieces have operands one by one, unless one of them mentions the root. -/
theorem mapM_toOperand?_eq (parts : List Piece) :
    parts.mapM Piece.toOperand?
      = if parts.any Piece.mentionsRoot then none
        else some (parts.map fun piece => piece.operand.code) := by
  induction parts with
  | nil => rfl
  | cons piece parts ih =>
      rw [List.mapM_cons, Piece.toOperand?_eq, ih, List.any_cons]
      cases piece.mentionsRoot with
      | true => rfl
      | false =>
          cases parts.any Piece.mentionsRoot with
          | true => rfl
          | false => rfl

/-- The operands of a fragment. Nothing is the empty literal. -/
def operands (fragment : Text) : List Operand :=
  match pieces fragment with
  | [] => [.literal (quote [])]
  | parts => parts.map Piece.operand

/-- A fragment that does not mention the root is the concatenation of its
operands. -/
theorem toExpression?_eq (fragment : Text) :
    toExpression? fragment
      = if (pieces fragment).any Piece.mentionsRoot then none
        else some (Text.join " . " ((operands fragment).map Operand.code)) := by
  unfold toExpression? operands
  split
  · next hnil =>
    rw [hnil]
    exact congrArg some (List.append_nil _).symm
  · rw [mapM_toOperand?_eq]
    split
    · rfl
    · simp only [Option.map_some, List.map_map]
      rfl

/-- The root is a piece of paths that start there. -/
theorem root_mem_pieces {fragment : Text} :
    .root ∈ pieces fragment ↔ isAnchored fragment = true := by
  have hchunks : ∀ all : List Chunk, .root ∉ all.map Chunk.toPiece := by
    intro all hmem
    obtain ⟨chunk, -, hchunk⟩ := List.mem_map.1 hmem
    cases chunk <;> cases hchunk
  unfold pieces
  split
  · exact iff_of_true List.mem_cons_self rfl
  · next hroot =>
    refine iff_of_false (hchunks _) fun hanchored => ?_
    obtain ⟨rest, rfl⟩ : ∃ rest, fragment = '@' :: rest :=
      List.head?_eq_some_iff.1 (by simpa [isAnchored] using hanchored)
    exact hroot rest rfl

theorem any_mentionsRoot_iff {fragment : Text} :
    (pieces fragment).any Piece.mentionsRoot = true
      ↔ isAnchored fragment = true ∨ ∃ t, .literal t ∈ pieces fragment ∧ '@' ∈ t := by
  rw [List.any_eq_true, ← root_mem_pieces]
  constructor
  · rintro ⟨piece, hmem, hpiece⟩
    cases piece with
    | root => exact Or.inl hmem
    | literal t => exact Or.inr ⟨t, hmem, by simpa [Piece.mentionsRoot] using hpiece⟩
    | placeholder e => cases hpiece
  · rintro (hmem | ⟨t, hmem, hat⟩)
    · exact ⟨.root, hmem, rfl⟩
    · exact ⟨.literal t, hmem, by simpa [Piece.mentionsRoot] using hat⟩

-- ================================================================ meaning

theorem Piece.isFor_operand {piece : Piece} (h : piece ≠ .root) :
    piece.operand.IsFor piece := by
  cases piece with
  | root => exact absurd rfl h
  | placeholder e => rfl
  | literal t =>
      have hread := readLiteral?_quote t []
      rwa [List.append_nil] at hread

/-- An operand is evaluated to what fills its piece, -/
theorem Piece.value?_operand (value : Text → Text) (piece : Piece) :
    piece.operand.value? value = some (piece.filled value) := by
  have hliteral : ∀ t, Operand.value? value (.literal (quote t)) = some t := by
    intro t
    have hread := readLiteral?_quote t []
    rw [List.append_nil] at hread
    simp only [Operand.value?, hread]
  cases piece with
  | placeholder e => rfl
  | root => exact hliteral _
  | literal t => exact hliteral t

/-- and so are operands one after another. -/
theorem evaluate?_map_operand (value : Text → Text) (parts : List Piece) :
    evaluate? value (parts.map Piece.operand) = some (parts.flatMap (Piece.filled value)) := by
  have hvalues : (parts.map Piece.operand).mapM (Operand.value? value)
      = some (parts.map (Piece.filled value)) := by
    induction parts with
    | nil => rfl
    | cons piece parts ih =>
        rw [List.map_cons, List.mapM_cons, Piece.value?_operand, ih]
        rfl
  rw [evaluate?, hvalues, List.flatMap_def]
  rfl

theorem evaluate?_operands (value : Text → Text) (fragment : Text) :
    evaluate? value (operands fragment) = some (gather (Piece.filled value) fragment) := by
  unfold operands gather
  split
  · next hnil =>
    rw [hnil]
    exact evaluate?_map_operand value [.literal []]
  · exact evaluate?_map_operand value _

theorem pieces_ne_nil {fragment : Text} (h : fragment ≠ []) : pieces fragment ≠ [] := by
  intro hnil
  have hwritten := gather_render fragment
  rw [gather, hnil] at hwritten
  exact h (List.append_eq_nil_iff.1 hwritten.symm).1

/-- A quoted text is one literal, which is read as that text. A fragment whose
placeholders are closed has no expression just if it mentions the root. Otherwise
its expression has one operand for each piece, in order, and for all values of
the placeholders the operands have together the value of the fragment. -/
theorem expression_denotes :
    (∀ t rest : Text, readLiteral? (quote t ++ rest) = some (t, rest))
    ∧ ∀ fragment : Text, Closed fragment →
      (toExpression? fragment = none
        ↔ isAnchored fragment = true ∨ ∃ t, .literal t ∈ pieces fragment ∧ '@' ∈ t)
      ∧ ∀ code, toExpression? fragment = some code → ∃ all : List Operand,
        code = Text.join " . " (all.map Operand.code)
        ∧ (fragment = [] → all = [.literal "''"])
        ∧ (fragment ≠ [] → List.Forall₂ Operand.IsFor all (pieces fragment))
        ∧ ∀ value whole, Filled value fragment whole ↔ evaluate? value all = some whole := by
  refine ⟨readLiteral?_quote, fun fragment hclosed => ?_⟩
  rw [toExpression?_eq, ← any_mentionsRoot_iff]
  cases hany : (pieces fragment).any Piece.mentionsRoot with
  | true => exact ⟨iff_of_true rfl rfl, fun code hcode => (by cases hcode)⟩
  | false =>
      refine ⟨iff_of_false (by simp) (by simp), fun code hcode => ?_⟩
      cases hcode
      refine ⟨operands fragment, rfl, ?_, fun hne => ?_, fun value whole => ?_⟩
      · rintro rfl
        rfl
      · have hparts : operands fragment = (pieces fragment).map Piece.operand := by
          unfold operands
          split
          · next hnil => exact absurd hnil (pieces_ne_nil hne)
          · rfl
        rw [hparts, List.forall₂_map_left_iff, List.forall₂_same]
        intro piece hmem
        refine Piece.isFor_operand fun hroot => ?_
        rw [hroot] at hmem
        exact Bool.false_ne_true (hany.symm.trans (List.any_eq_true.2 ⟨_, hmem, rfl⟩))
      · rw [evaluate?_operands, filled_iff value hclosed, Option.some_inj]
        exact eq_comm

/-- A fragment with a mark and a backslash on both sides of a placeholder. -/
def markedFragment : Text :=
  "it's\\\x7b$type\x7d\\'"

theorem expression_denotes_markedFragment :
    toExpression? markedFragment
      = some ("'it\\'s\\\\' . $type . '\\\\\\''" : Text)
    ∧ ∃ all : List Operand, evaluate? (fun _ => "mod") all = some ("it's\\mod\\'" : Text)
      ∧ Text.join " . " (all.map Operand.code) = "'it\\'s\\\\' . $type . '\\\\\\''" := by
  have hclosed : Closed markedFragment := by decide
  have hcode : toExpression? markedFragment
      = some ("'it\\'s\\\\' . $type . '\\\\\\''" : Text) := by decide
  obtain ⟨-, hall⟩ := expression_denotes.2 markedFragment hclosed
  obtain ⟨all, hjoin, -, -, hvalue⟩ := hall _ hcode
  refine ⟨hcode, all, (hvalue _ _).1 ?_, hjoin.symm⟩
  rw [filled_iff _ hclosed]
  decide

end ComponentPaths.Symbolic
