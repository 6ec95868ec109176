/-
Edits: replacing ranges of a file, all at once.

Every edit refers to the file as it was. Edits are applied from the last to
the first, so that the offsets of those still to come stay right. They are
refused when one lies outside the file or two of them meet.
-/
import ComponentPaths.Fault
import ComponentPaths.Text.Bytes

namespace ComponentPaths

/-- The bytes of a span replaced by a text. -/
structure Edit where
  span : Span
  replacement : Text
  deriving DecidableEq, Repr

namespace Edit

/-- The bytes an edit puts in. -/
def bytes (e : Edit) : Bytes :=
  Bytes.ofText e.replacement

/-- How much longer an edit makes the file. -/
def delta (e : Edit) : Int :=
  (e.bytes.length : Int) - ((e.span.stop : Int) - (e.span.start : Int))

/-- Whether an edit comes no later in the file than another: the order by
start, then by end, from the last to the first. -/
def notBefore (a b : Edit) : Bool :=
  b.span.start < a.span.start || (a.span.start == b.span.start && b.span.stop ≤ a.span.stop)

/-- Edits from the last to the first. -/
def fromLast (edits : List Edit) : List Edit :=
  edits.mergeSort notBefore

/-- Whether an edit lies in a file of a length. -/
def fits (length : Nat) (e : Edit) : Bool :=
  e.span.start ≤ e.span.stop && e.span.stop ≤ length

/-- Whether an edit meets the next one in the file: they share a byte, or start
at the same place. -/
def meets (e later : Edit) : Bool :=
  later.span.start < e.span.stop || e.span.start == later.span.start

/-- The fault of an edit that does not fit. -/
def outside (path : Text) (length : Nat) (e : Edit) : Fault :=
  .invalidTarget ("edit " ++ e.span.display ++ " outside " ++ path ++ " ("
    ++ Text.ofNat length ++ " bytes)")

/-- The first fault of edits given from the last to the first, where `later`
is the edit before in the list. -/
def fault? (path : Text) (length : Nat) : (later : Option Edit) → List Edit → Option Fault
  | _, [] => none
  | later, e :: rest =>
    if e.fits length = false then some (outside path length e)
    else
      match later.filter e.meets with
      | some l => some (.overlappingEdits path e.span l.span)
      | none => fault? path length (some e) rest

/-- One range of a file replaced. -/
def splice (content : Bytes) (e : Edit) : Bytes :=
  content.take e.span.start ++ e.bytes ++ content.drop e.span.stop

/-- A file with all edits applied; `path` names the file in faults. -/
def applyAll (content : Bytes) (edits : List Edit) (path : Text) : Except Fault Bytes :=
  let ordered := fromLast edits
  match fault? path content.length none ordered with
  | some fault => .error fault
  | none => .ok (ordered.foldl splice content)

end Edit

end ComponentPaths
