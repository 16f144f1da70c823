import ComponentTsx.Text

/-!
# Byte spans

A span is a half-open range of byte offsets, which are numbers here.  Nothing
forces its start to lie before its stop: such a span has length zero, contains no
offset and cuts no text.
-/

namespace ComponentTsx

set_option autoImplicit false

/-- The byte offsets from `start` up to, but not including, `stop`. -/
structure Span where
  start : Nat
  stop : Nat
deriving DecidableEq, Repr, Inhabited

namespace Span

/-- The span of a given length that begins at an offset. -/
def ofLength (start length : Nat) : Span := ⟨start, start + length⟩

/-- The empty span at an offset. -/
def emptyAt (offset : Nat) : Span := ⟨offset, offset⟩

/-- The number of bytes of the span. -/
def length (span : Span) : Nat := span.stop - span.start

/-- A span is empty when it stops where it starts. -/
def isEmpty (span : Span) : Bool := span.start = span.stop

/-- Whether the byte at an offset lies in the span. -/
def contains (span : Span) (offset : Nat) : Bool :=
  decide (span.start ≤ offset) && decide (offset < span.stop)

/-- The least span that includes both. -/
def cover (first second : Span) : Span :=
  ⟨min first.start second.start, max first.stop second.stop⟩

/-- The span moved right by a distance. -/
def shift (span : Span) (distance : Nat) : Span :=
  ⟨span.start + distance, span.stop + distance⟩

/-- The text under the span; empty when the span's ends are no character boundaries in order. -/
def slice (span : Span) (text : Text) : Text :=
  (text.slice? span.start span.stop).getD []

@[simp] theorem contains_iff {span : Span} {offset : Nat} :
    span.contains offset = true ↔ span.start ≤ offset ∧ offset < span.stop := by
  simp [contains]

@[simp] theorem start_ofLength (start length : Nat) : (ofLength start length).start = start := rfl

@[simp] theorem stop_ofLength (start length : Nat) :
    (ofLength start length).stop = start + length := rfl

@[simp] theorem length_ofLength (start length : Nat) : (ofLength start length).length = length := by
  simp [ofLength, Span.length]

theorem cover_shift (first second : Span) (distance : Nat) :
    (first.shift distance).cover (second.shift distance) = (first.cover second).shift distance := by
  simp [cover, shift, Nat.add_min_add_right, Nat.add_max_add_right]

/-- The span of the middle of three parts cuts out that part. -/
theorem slice_ofLength_append (first middle last : Text) :
    (ofLength first.byteLength middle.byteLength).slice (first ++ middle ++ last) = middle := by
  rw [slice, ofLength, Text.slice?_append, Option.getD_some]

end Span

end ComponentTsx
