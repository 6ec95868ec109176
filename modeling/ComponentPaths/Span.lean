/-
Spans: half-open ranges of byte offsets in a file.
-/
namespace ComponentPaths

/-- The bytes from `start` up to but not including `stop`. -/
structure Span where
  start : Nat
  stop : Nat
  deriving DecidableEq, Repr

namespace Span

/-- Whether a span covers another. -/
def contains (a b : Span) : Bool :=
  a.start ≤ b.start && b.stop ≤ a.stop

/-- Whether two spans share a byte. -/
def overlaps (a b : Span) : Bool :=
  a.start < b.stop && b.start < a.stop

end Span

end ComponentPaths
