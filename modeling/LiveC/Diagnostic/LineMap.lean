import LiveC.Diagnostic.Basic
/-!
# Line maps

A generated source is stitched together from fragments that somebody wrote. A `LineMap` records
which of its lines came from which fragment, and `resolve?` takes a span in the generated source
back to the fragment.
-/

namespace LiveC

/-- A run of generated lines that came from one fragment. -/
structure Segment where
  first : Nat
  count : Nat
  origin : String
  originLine : Nat
  deriving DecidableEq, Repr

/-- Whether a line lies in the segment. A segment has at least one line. -/
def Segment.covers (s : Segment) (line : Nat) : Bool :=
  s.first ≤ line && line < s.first + max 1 s.count

/-- A generated file and the segments it is made of. -/
structure LineMap where
  file : String
  segments : List Segment
  deriving DecidableEq, Repr

namespace LineMap

/-- A map without segments. -/
def empty (file : String) : LineMap := ⟨file, []⟩

/-- Note that some generated lines came from a fragment. -/
def record (m : LineMap) (s : Segment) : LineMap := { m with segments := m.segments ++ [s] }

/-- A span in terms of the fragment it lies in: the first segment that covers its line. -/
def resolve? (m : LineMap) (span : Span) : Option Span :=
  if span.file == m.file && span.isKnown then
    (m.segments.find? (·.covers span.line)).map fun s =>
      { span with file := s.origin, line := s.originLine + (span.line - s.first) }
  else none

end LineMap

end LiveC
