/-
Symbolic paths: the path a piece of code builds, with the parts that are
only known when the code runs left open.

A symbolic path is written as text. `@` at the start is the root of the
codebase, `/` separates segments, and a placeholder, an expression in
braces, stands for a value that is not known. So `@/lib/{$name}.php` is the
file in `lib` that `$name` names. Braces nest, and quoted text inside a
placeholder is skipped over, so `{f('}')}` is one placeholder. A placeholder
that is never closed runs to the end of the text.

One scanner decides what is inside a placeholder. `chunks` cuts a text where
the scanner enters and leaves placeholders, `segments` cuts it at the
separators the scanner sees outside, and so both agree on every boundary.
-/
import ComponentPaths.Text.Basic

namespace ComponentPaths.Symbolic

-- ============================================================= the scanner

/-- Where a scan stands: outside every placeholder, in its code with `depth`
braces open beyond the first, in text quoted by `mark`, or right after a
backslash there. -/
inductive Scan where
  | outside
  | code (depth : Nat)
  | quoted (depth : Nat) (mark : Char)
  | escaped (depth : Nat) (mark : Char)
  deriving DecidableEq, Repr

/-- The scan after one more character. -/
def Scan.step : Scan → Char → Scan
  | .outside, c => if c = '{' then .code 0 else .outside
  | .code depth, c =>
    if c = '\'' ∨ c = '"' then .quoted depth c
    else if c = '{' then .code (depth + 1)
    else if c = '}' then
      match depth with
      | 0 => .outside
      | outer + 1 => .code outer
    else .code depth
  | .quoted depth mark, c =>
    if c = '\\' then .escaped depth mark
    else if c = mark then .code depth
    else .quoted depth mark
  | .escaped depth mark, _ => .quoted depth mark

-- =================================================================== chunks

/-- A run of plain text, or a whole placeholder with its braces. -/
inductive Chunk where
  | plain (text : Text)
  | hole (text : Text)
  deriving DecidableEq, Repr

/-- One plain character in front of what follows it. -/
def Chunk.consPlain (c : Char) : List Chunk → List Chunk
  | .plain t :: rest => .plain (c :: t) :: rest
  | rest => .plain [c] :: rest

/-- One character of a placeholder in front of the rest of that placeholder. -/
def Chunk.consHole (c : Char) : List Chunk → List Chunk
  | .hole t :: rest => .hole (c :: t) :: rest
  | rest => .hole [c] :: rest

/-- The chunks of a text that is read from the state `scan`. -/
def chunksFrom : Scan → Text → List Chunk
  | _, [] => []
  | scan, c :: cs =>
    let next := scan.step c
    let rest := chunksFrom next cs
    match scan, next with
    | .outside, .outside => Chunk.consPlain c rest
    | _, .outside => .hole [c] :: rest
    | _, _ => Chunk.consHole c rest

/-- The plain runs and placeholders of a text, in order. -/
def chunks (t : Text) : List Chunk :=
  chunksFrom .outside t

-- =================================================================== pieces

/-- What a symbolic path is made of. -/
inductive Piece where
  /-- The root of the codebase. -/
  | root
  /-- Text that stands for itself. -/
  | literal (text : Text)
  /-- An expression whose value is not known, without its braces. -/
  | placeholder (expression : Text)
  deriving DecidableEq, Repr

/-- The expression inside a placeholder. One that was never closed has no
closing brace to drop. -/
def holeInner (hole : Text) : Text :=
  let body := hole.drop 1
  (Text.dropTail? ['}'] body).getD body

/-- The piece a chunk stands for. -/
def Chunk.toPiece : Chunk → Piece
  | .plain t => .literal t
  | .hole t => .placeholder (holeInner t)

/-- The pieces of a symbolic path: the root if it starts there, then literal
runs and placeholders. -/
def pieces : Text → List Piece
  | '@' :: rest => .root :: (chunks rest).map Chunk.toPiece
  | path => (chunks path).map Chunk.toPiece

/-- The written form of a piece. -/
def Piece.render : Piece → Text
  | .root => ['@']
  | .literal t => t
  | .placeholder e => '{' :: e ++ ['}']

/-- The placeholder for an expression. -/
def placeholder (expression : Text) : Text :=
  (Piece.placeholder expression).render

/-- Whether a piece is a placeholder. -/
def Piece.isPlaceholder : Piece → Bool
  | .placeholder _ => true
  | _ => false

/-- Whether a piece is literal text. -/
def Piece.isLiteral : Piece → Bool
  | .literal _ => true
  | _ => false

-- ================================================================= segments

/-- One character in front of the first segment. -/
def consFirst (c : Char) : List Text → List Text
  | [] => [[c]]
  | s :: rest => (c :: s) :: rest

/-- The segments of a text that is read from the state `scan`. -/
def segmentsFrom : Scan → Text → List Text
  | _, [] => [[]]
  | scan, c :: cs =>
    if scan = .outside ∧ c = '/' then [] :: segmentsFrom .outside cs
    else consFirst c (segmentsFrom (scan.step c) cs)

/-- The parts between separators outside placeholders, empty ones included. -/
def segments (path : Text) : List Text :=
  segmentsFrom .outside path

/-- The segments that are not empty. -/
def properSegments (path : Text) : List Text :=
  (segments path).filter fun s => !s.isEmpty

-- ================================================================ questions

/-- Whether a path starts at the root of the codebase. -/
def isAnchored (path : Text) : Bool :=
  path.head? == some '@'

/-- Whether a path starts with a value that is not known. -/
def isUnanchored (path : Text) : Bool :=
  path.head? == some '{'

/-- Whether some part of a path is not known. -/
def hasPlaceholder (path : Text) : Bool :=
  (pieces path).any Piece.isPlaceholder

/-- Whether a path is text alone: no root anywhere and no placeholder. -/
def isLiteral (path : Text) : Bool :=
  (pieces path).all Piece.isLiteral && !path.contains '@'

/-- The expression of a path that is one placeholder and nothing else. -/
def singlePlaceholder? (path : Text) : Option Text :=
  match pieces path with
  | [.placeholder e] => some e
  | _ => none

/-- The path below the root: what follows the anchor and one separator. -/
def stripRoot? : Text → Option Text
  | '@' :: '/' :: rest => some rest
  | '@' :: rest => some rest
  | _ => none

end ComponentPaths.Symbolic
