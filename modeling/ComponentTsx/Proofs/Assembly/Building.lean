import ComponentTsx.Proofs.SourceMap.Segments

/-!
# Source maps built piece by piece

A builder in numbers is told of one piece of a text after the other.  It keeps
the mappings of the pieces so far and the length of their texts
(`Builder.add_eq`), so what it has after all pieces are the readings of the
assembly (`Builder.foldl_add_eq`), and sorting its mappings changes nothing.

Numbers have no limit.  Texts below the limit of offsets get the same source map
from a builder in offsets.
-/

namespace ComponentTsx

set_option autoImplicit false

/-! ## Builders -/

/-- A generated text while it is assembled: its mappings and its length so far. -/
structure Builder where
  mappings : List Mapping := []
  length : Nat := 0

namespace Builder

/-- The builder after a text that stands for a source span; an empty text has no mapping. -/
def addReplaced (builder : Builder) (source : Span) (text : Text) : Builder :=
  let generated := Span.ofLength builder.length text.byteLength
  ⟨if generated.isEmpty then builder.mappings else builder.mappings ++ [⟨generated, source⟩],
    generated.stop⟩

/-- The builder after one more piece. -/
def add (builder : Builder) : Piece → Builder
  | .copied start text => builder.addReplaced (.ofLength start text.byteLength) text
  | .replaced source text => builder.addReplaced source text
  | .synthetic text => { builder with length := builder.length + text.byteLength }

/-- The builder after all pieces of an assembly. -/
def ofAssembly (assembly : Assembly) : Builder := assembly.foldl add {}

/-- The source map of what has been added, its mappings sorted by where they begin. -/
def build (builder : Builder) : SourceMap :=
  ⟨builder.mappings.mergeSort fun first second => first.generated.start ≤ second.generated.start⟩

theorem addReplaced_eq (builder : Builder) (source : Span) (text : Text) :
    builder.addReplaced source text =
      ⟨builder.mappings ++ ((Piece.replaced source text).mapping? builder.length).toList,
        builder.length + text.byteLength⟩ := by
  have isEmpty : (Span.ofLength builder.length text.byteLength).isEmpty ↔ text = [] := by
    rw [Span.isEmpty, decide_eq_true_iff, Span.start_ofLength, Span.stop_ofLength, ← not_iff_not,
      ← ne_eq text, ← Text.byteLength_pos_iff]
    omega
  have isText : (Piece.replaced source text).text = text := rfl
  rw [addReplaced, Piece.mapping?, isText, Span.stop_ofLength]
  by_cases empty : text = []
  · rw [if_pos (isEmpty.mpr empty), if_pos empty, Option.toList_none, List.append_nil]
  · rw [if_neg (mt isEmpty.mp empty), if_neg empty]
    rfl

/-- A piece adds its mapping, if it has one, and the length of its text. -/
theorem add_eq (builder : Builder) (piece : Piece) :
    builder.add piece =
      ⟨builder.mappings ++ (piece.mapping? builder.length).toList,
        builder.length + piece.text.byteLength⟩ := by
  cases piece with
  | copied start text => exact builder.addReplaced_eq _ text
  | replaced source text => exact builder.addReplaced_eq source text
  | synthetic text =>
      have none : (Piece.synthetic text).mapping? builder.length = none := by
        simp [Piece.mapping?, Piece.source?]
      rw [none, Option.toList_none, List.append_nil]
      rfl

/-- All pieces of an assembly add its mappings and the length of its text. -/
theorem foldl_add_eq (builder : Builder) (assembly : Assembly) :
    assembly.foldl add builder =
      ⟨builder.mappings ++ assembly.mappingsFrom builder.length,
        builder.length + assembly.text.byteLength⟩ := by
  induction assembly generalizing builder with
  | nil => simp
  | cons piece rest ih =>
      rw [List.foldl_cons, ih, add_eq]
      simp [Assembly.mappingsFrom, Nat.add_assoc]

theorem ofAssembly_eq (assembly : Assembly) :
    ofAssembly assembly = ⟨assembly.mappingsFrom 0, assembly.text.byteLength⟩ := by
  simp [ofAssembly, foldl_add_eq]

end Builder

/-! ## The finished map -/

namespace Assembly

/-- The mappings begin in strictly ascending order. -/
theorem pairwise_start_mappingsFrom (assembly : Assembly) (offset : Nat) :
    (assembly.mappingsFrom offset).Pairwise fun first second =>
      first.generated.start < second.generated.start := by
  refine (assembly.pairwise_mappingsFrom offset).imp_of_mem fun isFirst _ ordered => ?_
  exact Nat.lt_of_lt_of_le (bounds_of_mem_mappingsFrom isFirst).2.1 ordered

theorem build_ofAssembly (assembly : Assembly) :
    (Builder.ofAssembly assembly).build = assembly.sourceMap := by
  rw [Builder.ofAssembly_eq, Builder.build]
  refine congrArg SourceMap.mk (List.mergeSort_of_pairwise ?_)
  exact (assembly.pairwise_start_mappingsFrom 0).imp fun before =>
    decide_eq_true (Nat.le_of_lt before)

end Assembly

end ComponentTsx
