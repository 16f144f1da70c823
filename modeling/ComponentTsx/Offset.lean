import ComponentTsx.Span

/-!
# Byte offsets

Offsets have 32 bits, and their sums and differences wrap around.  So the length of
a span that stops before it starts is counted on past the limit, and a span that
runs past the limit stops before it starts.  Below the limit offsets are the
numbers that they stand for, and the spans of offsets those of numbers.
-/

namespace ComponentTsx

set_option autoImplicit false

/-- A byte offset of 32 bits. -/
abbrev Offset := UInt32

/-- The offsets from `start` up to, but not including, `stop`. -/
structure OffsetSpan where
  start : Offset
  stop : Offset
deriving DecidableEq, Repr

namespace OffsetSpan

/-- The span of a given length that begins at an offset. -/
def ofLength (start : Offset) (length : Nat) : OffsetSpan := ⟨start, start + UInt32.ofNat length⟩

/-- The empty span at an offset. -/
def emptyAt (offset : Offset) : OffsetSpan := ⟨offset, offset⟩

/-- A span in offsets, as far as these go. -/
def ofSpan (span : Span) : OffsetSpan := ⟨UInt32.ofNat span.start, UInt32.ofNat span.stop⟩

/-- The span in numbers. -/
def toSpan (span : OffsetSpan) : Span := ⟨span.start.toNat, span.stop.toNat⟩

/-- The number of bytes of the span, counted past the limit if it stops before it starts. -/
def length (span : OffsetSpan) : Offset := span.stop - span.start

/-- A span is empty when it stops where it starts. -/
def isEmpty (span : OffsetSpan) : Bool := span.start = span.stop

/-- Whether the byte at an offset lies in the span. -/
def contains (span : OffsetSpan) (offset : Offset) : Bool :=
  decide (span.start ≤ offset) && decide (offset < span.stop)

/-- The least span that includes both. -/
def cover (first second : OffsetSpan) : OffsetSpan :=
  ⟨min first.start second.start, max first.stop second.stop⟩

/-- The span moved right by a distance. -/
def shift (span : OffsetSpan) (distance : Offset) : OffsetSpan :=
  ⟨span.start + distance, span.stop + distance⟩

/-- The text under the span; empty when the span's ends are no character boundaries in order. -/
def slice (span : OffsetSpan) (text : Text) : Text := span.toSpan.slice text

@[simp] theorem contains_iff {span : OffsetSpan} {offset : Offset} :
    span.contains offset = true ↔ span.start ≤ offset ∧ offset < span.stop := by
  simp [contains]

end OffsetSpan

end ComponentTsx
