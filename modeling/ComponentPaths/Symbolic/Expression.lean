/-
Symbolic paths as PHP expressions: a fragment becomes the concatenation of
its literal runs, each a single-quoted string, and the expressions of its
placeholders.
-/
import ComponentPaths.Symbolic.Basic

namespace ComponentPaths.Symbolic

/-- A text with another in the place of a character. -/
def replaceChar (c : Char) (replacement t : Text) : Text :=
  t.flatMap fun d => if d = c then replacement else [d]

/-- A single-quoted PHP string: the backslashes are escaped first, and then the
quotes. -/
def quote (t : Text) : Text :=
  '\'' :: replaceChar '\'' ['\\', '\''] (replaceChar '\\' ['\\', '\\'] t) ++ ['\'']

/-- One character inside single quotes. Only the backslash and the quote
need an escape. -/
def quoteChar (c : Char) : Text :=
  if c = '\\' then ['\\', '\\']
  else if c = '\'' then ['\\', '\'']
  else [c]

/-- The two passes escape each character by itself: the second finds no quote that
the first has written. -/
theorem quote_eq_flatMap (t : Text) : quote t = '\'' :: t.flatMap quoteChar ++ ['\''] := by
  unfold quote replaceChar
  rw [List.flatMap_assoc]
  have hchar : ∀ c : Char,
      (if c = '\\' then ['\\', '\\'] else [c]).flatMap
          (fun d => if d = '\'' then ['\\', '\''] else [d])
        = quoteChar c := by
    intro c
    unfold quoteChar
    by_cases hback : c = '\\'
    · subst hback
      rfl
    · rw [if_neg hback, if_neg hback, List.flatMap_singleton]
  rw [show (fun c : Char => _) = quoteChar from funext hchar]

/-- One operand of a concatenation. The root has no expression, and neither
has literal text that mentions it. -/
def Piece.toOperand? : Piece → Option Text
  | .root => none
  | .literal t => if t.contains '@' then none else some (quote t)
  | .placeholder e => some e

/-- The PHP expression a fragment denotes; fails when it holds the root. -/
def toExpression? (fragment : Text) : Option Text :=
  match pieces fragment with
  | [] => some (quote [])
  | parts => (parts.mapM Piece.toOperand?).map (Text.join " . ")

end ComponentPaths.Symbolic
