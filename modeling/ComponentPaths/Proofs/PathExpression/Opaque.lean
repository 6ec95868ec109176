/-
Code in a path, and the text after it.

A ternary is not looked into. It contributes its source text as the code of
one placeholder, whatever the text is, and the operand after it contributes
the text that follows in the path. Whether a reader of the path finds the two
again is a question of the source text: it has to be balanced, and that is
enough (`concat_pieces_iff_balanced`).

Expressions of the language are balanced as far as their tokens go, but
source text has comments in it. A lone quote in a comment opens a string for
the reader, which then runs over the closing brace and takes the rest of the
path for code (`comment_swallows_suffix`).
-/
import ComponentPaths.Proofs.PathExpression.Rules
import ComponentPaths.Proofs.Symbolic.Balanced

namespace ComponentPaths.Contribution

open Symbolic (pieces Balanced)

/-- A concatenation of two operands. -/
structure IsPair (a : Arena) (id left right : Nat) : Prop where
  kind : a.kind id = .concat
  children : a.children id = [left, right]

instance (a : Arena) (id left right : Nat) : Decidable (IsPair a id left right) :=
  decidable_of_iff (a.kind id = .concat ∧ a.children id = [left, right])
    ⟨fun h => ⟨h.1, h.2⟩, fun h => ⟨h.kind, h.children⟩⟩

variable {a : Arena} {file s : Text} {id left right : Nat}

/-- A concatenation contributes what its operands do. -/
theorem IsPair.total_eq (h : IsPair a id left right) (hl : a.Linked) :
    total a file id = total a file left ++ total a file right := by
  rw [Contribution.total_eq hl]
  unfold ofNode ofChildren
  simp only [h.kind, h.children, List.flatMap_cons, List.flatMap_nil, List.append_nil]

/-- A literal contributes its text. -/
theorem total_stringLiteral (hl : a.Linked) (h : a.kind id = .stringLiteral s) :
    total a file id = s := by
  rw [Contribution.total_eq hl]
  unfold ofNode
  rw [h]

/-- A choice contributes a placeholder with its source text. -/
theorem total_ternary (hl : a.Linked) (h : a.kind id = .ternary) :
    total a file id = Symbolic.placeholder ("(" ++ a.trimmedText id ++ ")") := by
  rw [Contribution.total_eq hl]
  unfold ofNode
  rw [h]

/-- A ternary and the literal after it are two pieces of their concatenation
just if the source text of the ternary is balanced. -/
theorem concat_pieces_iff_balanced (hb : a.Built) (hpair : IsPair a id left right)
    (hleft : a.kind left = .ternary) (hright : a.kind right = .stringLiteral s)
    (hne : s ≠ []) (hs : '{' ∉ s) :
    pieces (total a file id)
        = [.placeholder ("(" ++ a.trimmedText left ++ ")"), .literal s]
      ↔ Balanced (a.trimmedText left) := by
  have hl := hb.linked
  rw [hpair.total_eq hl, total_ternary hl hleft, total_stringLiteral hl hright,
    Symbolic.pieces_placeholder_iff hne hs, Symbolic.balanced_parenthesized]

/-- An include whose directory depends on a condition. -/
def chosenInclude : Arena :=
  (Arena.empty (Bytes.ofText "require ($a ? '\x7d' : \"it's\").'/lib.php';"))
    |>.push none "" .expressionStatement ⟨0, 39⟩ 1 1
    |>.push (some 0) "expr" (.inclusion .require) ⟨0, 38⟩ 1 1
    |>.push (some 1) "expr" .concat ⟨8, 38⟩ 1 1
    |>.push (some 2) "left" .ternary ⟨9, 26⟩ 1 1
    |>.push (some 3) "cond" (.variableRef (some "a")) ⟨9, 11⟩ 1 1
    |>.push (some 3) "if" (.stringLiteral "\x7d") ⟨14, 17⟩ 1 1
    |>.push (some 3) "else" (.stringLiteral "it's") ⟨20, 26⟩ 1 1
    |>.push (some 2) "right" (.stringLiteral "/lib.php") ⟨28, 38⟩ 1 1

theorem built_chosenInclude : chosenInclude.Built :=
  (Arena.Built.empty _).top
    |>.under (by decide) |>.under (by decide) |>.under (by decide) |>.under (by decide)
    |>.under (by decide) |>.under (by decide) |>.under (by decide)

/-- Quotes and braces that pair up do not disturb. -/
theorem concat_pieces_iff_balanced_chosenInclude :
    Balanced (chosenInclude.trimmedText 3)
    ∧ pieces (total chosenInclude "mod/quiz/view.php" 2)
      = [.placeholder "($a ? '\x7d' : \"it's\")", .literal "/lib.php"] := by
  have htext : chosenInclude.trimmedText 3 = "$a ? '\x7d' : \"it's\"" := by decide +kernel
  have hbalanced : Balanced (chosenInclude.trimmedText 3) := by
    rw [htext]
    decide
  have hiff : pieces (total chosenInclude "mod/quiz/view.php" 2)
      = [.placeholder ("(" ++ chosenInclude.trimmedText 3 ++ ")"), .literal "/lib.php"]
      ↔ Balanced (chosenInclude.trimmedText 3) :=
    concat_pieces_iff_balanced built_chosenInclude (by decide +kernel : IsPair chosenInclude 2 3 7)
      (by decide +kernel) (by decide +kernel) (by decide) (by decide)
  have hpieces := hiff.2 hbalanced
  rw [htext] at hpieces
  exact ⟨hbalanced, hpieces⟩

/-- The same with a comment that has an apostrophe in it. -/
def commentedInclude : Arena :=
  (Arena.empty (Bytes.ofText "require ($a /* don't */ ? 'x' : 'y').'/lib.php';"))
    |>.push none "" .expressionStatement ⟨0, 48⟩ 1 1
    |>.push (some 0) "expr" (.inclusion .require) ⟨0, 47⟩ 1 1
    |>.push (some 1) "expr" .concat ⟨8, 47⟩ 1 1
    |>.push (some 2) "left" .ternary ⟨9, 35⟩ 1 1
    |>.push (some 3) "cond" (.variableRef (some "a")) ⟨9, 11⟩ 1 1
    |>.push (some 3) "if" (.stringLiteral "x") ⟨26, 29⟩ 1 1
    |>.push (some 3) "else" (.stringLiteral "y") ⟨32, 35⟩ 1 1
    |>.push (some 2) "right" (.stringLiteral "/lib.php") ⟨37, 47⟩ 1 1

theorem built_commentedInclude : commentedInclude.Built :=
  (Arena.Built.empty _).top
    |>.under (by decide) |>.under (by decide) |>.under (by decide) |>.under (by decide)
    |>.under (by decide) |>.under (by decide) |>.under (by decide)

/-- A quote in a comment is never closed, and the placeholder takes the file
name into its code. -/
theorem comment_swallows_suffix :
    IsPair commentedInclude 2 3 7 ∧ commentedInclude.kind 3 = .ternary
    ∧ commentedInclude.kind 7 = .stringLiteral "/lib.php"
    ∧ commentedInclude.trimmedText 3 = "$a /* don't */ ? 'x' : 'y'"
    ∧ pieces (total commentedInclude "mod/quiz/view.php" 2)
      = [.placeholder "($a /* don't */ ? 'x' : 'y')\x7d/lib.php"]
    ∧ pieces (total commentedInclude "mod/quiz/view.php" 2)
      ≠ [.placeholder ("(" ++ commentedInclude.trimmedText 3 ++ ")"), .literal "/lib.php"] := by
  have hl := built_commentedInclude.linked
  have hpair : IsPair commentedInclude 2 3 7 := by decide +kernel
  have hternary : commentedInclude.kind 3 = .ternary := by decide +kernel
  have hliteral : commentedInclude.kind 7 = .stringLiteral "/lib.php" := by decide +kernel
  have htext : commentedInclude.trimmedText 3 = "$a /* don't */ ? 'x' : 'y'" := by
    decide +kernel
  have hpieces : pieces (total commentedInclude "mod/quiz/view.php" 2)
      = [.placeholder "($a /* don't */ ? 'x' : 'y')\x7d/lib.php"] := by
    rw [hpair.total_eq hl, total_ternary hl hternary, total_stringLiteral hl hliteral, htext]
    decide
  refine ⟨hpair, hternary, hliteral, htext, hpieces, ?_⟩
  rw [hpieces]
  simp

end ComponentPaths.Contribution
