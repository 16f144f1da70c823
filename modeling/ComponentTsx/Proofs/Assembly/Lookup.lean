import ComponentTsx.Assembly
import Mathlib.Data.List.TakeWhile

/-!
# Looking up positions in an assembled text

An offset of a generated text falls in exactly one piece, and the source map
gives it the source offset of that piece (`sourcePosition?_append_cons`).  The
map is searched for the last mapping that begins at or before the offset, so
the theorem rests on the mappings being laid out one after the other
(`bounds_of_mem_mappingsFrom`): those of earlier pieces end where the piece
begins, and those of later pieces begin where it ends.

In the other direction the first mapping whose source span covers an offset
answers; pieces that stand for nothing never do.
-/

namespace ComponentTsx

set_option autoImplicit false

namespace Piece

/-- The source offset of the byte at a distance into the piece. -/
def sourceAt? (piece : Piece) (distance : Nat) : Option Nat :=
  piece.source?.map fun source =>
    if piece.text.byteLength = source.length then source.start + distance else source.start

/-- A piece has a mapping if it has a text and stands for something, and the mapping covers it. -/
theorem mapping?_eq_some_iff {piece : Piece} {offset : Nat} {mapping : Mapping} :
    piece.mapping? offset = some mapping ↔
      piece.text ≠ [] ∧ piece.source? = some mapping.source ∧
        mapping.generated = .ofLength offset piece.text.byteLength := by
  unfold Piece.mapping?
  split
  · simp_all
  · rename_i nonempty
    obtain ⟨generated, source⟩ := mapping
    simp only [Option.map_eq_some_iff, Mapping.mk.injEq]
    constructor
    · rintro ⟨_, isSource, rfl, rfl⟩
      exact ⟨nonempty, isSource, rfl⟩
    · rintro ⟨_, isSource, rfl⟩
      exact ⟨source, isSource, rfl, rfl⟩

end Piece

namespace SourceMap

/-- The mapping that covers a generated offset, if there is one. -/
def covering? (map : SourceMap) (offset : Nat) : Option Mapping :=
  (map.lastStartingBy? offset).filter (·.generated.contains offset)

theorem sourcePosition?_eq_covering? (map : SourceMap) (offset : Nat) :
    map.sourcePosition? offset = (map.covering? offset).map (·.toSource offset) := by
  rw [sourcePosition?, covering?]
  cases map.lastStartingBy? offset with
  | none => rfl
  | some mapping =>
      simp only [bind, Option.bind, Option.filter_some]
      split <;> rfl

/-- A byte of the code is the byte of the source that the map leads to and back from. -/
def ExactAt (map : SourceMap) (source code : Text) (generated : Nat) : Prop :=
  ∃ original byte, map.sourcePosition? generated = some original ∧
    source.utf8[original]? = some byte ∧ code.utf8[generated]? = some byte ∧
    map.generatedPosition? original = some generated

end SourceMap

namespace Assembly

/-! ## The layout of the mappings -/

/-- The mappings of an assembly lie within its text. -/
theorem bounds_of_mem_mappingsFrom {assembly : Assembly} {offset : Nat} {mapping : Mapping}
    (member : mapping ∈ assembly.mappingsFrom offset) :
    offset ≤ mapping.generated.start ∧ mapping.generated.start < mapping.generated.stop ∧
      mapping.generated.stop ≤ offset + assembly.text.byteLength := by
  induction assembly generalizing offset with
  | nil => simp [mappingsFrom] at member
  | cons piece rest ih =>
      rw [text_cons, Text.byteLength_append]
      rcases List.mem_append.mp member with here | later
      · have isMapping := Option.mem_toList.mp here
        obtain ⟨nonempty, _, generated⟩ := Piece.mapping?_eq_some_iff.mp isMapping
        have positive := Text.byteLength_pos_iff.mpr nonempty
        rw [generated]
        simp only [Span.ofLength]
        omega
      · obtain ⟨lower, nonempty, upper⟩ := ih later
        omega

/-! ## Assemblies with the same readings -/

/-- Two assemblies agree if they have the same text and, wherever they begin, the same mappings. -/
structure Agrees (first second : Assembly) : Prop where
  text : first.text = second.text
  mappings : ∀ offset, first.mappingsFrom offset = second.mappingsFrom offset

namespace Agrees

theorem sourceMap {first second : Assembly} (agree : Agrees first second) :
    first.sourceMap = second.sourceMap :=
  congrArg SourceMap.mk (agree.mappings 0)

theorem refl (assembly : Assembly) : Agrees assembly assembly := ⟨rfl, fun _ => rfl⟩

theorem trans {first second third : Assembly} (left : Agrees first second)
    (right : Agrees second third) : Agrees first third :=
  ⟨left.text.trans right.text, fun offset => (left.mappings offset).trans (right.mappings offset)⟩

theorem append {first second third fourth : Assembly} (left : Agrees first second)
    (right : Agrees third fourth) : Agrees (first ++ third) (second ++ fourth) where
  text := by rw [text_append, text_append, left.text, right.text]
  mappings offset := by
    rw [mappingsFrom_append, mappingsFrom_append, left.mappings, right.mappings, left.text]

end Agrees

/-! ## From the generated text to the source -/

/-- The last mapping that begins by an offset in a piece is the piece's own or an earlier one. -/
theorem lastStartingBy?_append_cons (before after : Assembly) (piece : Piece) {distance : Nat}
    (inside : distance < piece.text.byteLength) :
    (sourceMap (before ++ piece :: after)).lastStartingBy? ((text before).byteLength + distance) =
      (before.mappingsFrom 0 ++
        (piece.mapping? (text before).byteLength).toList).getLast? := by
  have layout : (sourceMap (before ++ piece :: after)).mappings =
      (before.mappingsFrom 0 ++ (piece.mapping? (text before).byteLength).toList) ++
        mappingsFrom ((text before).byteLength + piece.text.byteLength) after := by
    simp [sourceMap, mappingsFrom_append, mappingsFrom]
  have earlier : ∀ mapping ∈ before.mappingsFrom 0 ++
      (piece.mapping? (text before).byteLength).toList,
      decide (mapping.generated.start ≤ (text before).byteLength + distance) = true := by
    intro mapping member
    rcases List.mem_append.mp member with member | member
    · have := bounds_of_mem_mappingsFrom member
      exact decide_eq_true (by omega)
    · obtain ⟨_, _, generated⟩ := Piece.mapping?_eq_some_iff.mp (Option.mem_toList.mp member)
      rw [generated]
      exact decide_eq_true (Nat.le_add_right _ _)
  have later : (mappingsFrom ((text before).byteLength + piece.text.byteLength) after).takeWhile
      (fun mapping => decide (mapping.generated.start ≤ (text before).byteLength + distance)) =
      [] := by
    rw [List.takeWhile_eq_nil_iff]
    intro positive
    have := bounds_of_mem_mappingsFrom (List.get_mem _ ⟨0, positive⟩)
    simp only [decide_eq_true_eq]
    omega
  rw [SourceMap.lastStartingBy?, layout, List.takeWhile_append_of_pos earlier, later,
    List.append_nil]

/-- **An offset of a generated text is covered by the mapping of its piece, if that has one.** -/
theorem covering?_append_cons (before after : Assembly) (piece : Piece) {distance : Nat}
    (inside : distance < piece.text.byteLength) :
    (sourceMap (before ++ piece :: after)).covering? ((text before).byteLength + distance) =
      piece.mapping? (text before).byteLength := by
  rw [SourceMap.covering?, lastStartingBy?_append_cons before after piece inside]
  cases isMapping : piece.mapping? (text before).byteLength with
  | none =>
      -- No mapping of its own: the last earlier one ends before the offset.
      rw [Option.toList_none, List.append_nil]
      cases last : (before.mappingsFrom 0).getLast? with
      | none => rfl
      | some mapping =>
          have := bounds_of_mem_mappingsFrom (List.mem_of_getLast? last)
          rw [Option.filter_some, if_neg]
          rw [Span.contains_iff]
          omega
  | some mapping =>
      obtain ⟨_, _, generated⟩ := Piece.mapping?_eq_some_iff.mp isMapping
      have covered : mapping.generated.contains ((text before).byteLength + distance) := by
        rw [generated, Span.contains_iff]
        simp only [Span.ofLength]
        omega
      rw [Option.toList_some, List.getLast?_append, List.getLast?_singleton, Option.some_or,
        Option.filter_some, if_pos covered]

/-- **An offset of a generated text has the source offset that its piece gives it.** -/
theorem sourcePosition?_append_cons (before after : Assembly) (piece : Piece) {distance : Nat}
    (inside : distance < piece.text.byteLength) :
    (sourceMap (before ++ piece :: after)).sourcePosition?
        ((text before).byteLength + distance) = piece.sourceAt? distance := by
  rw [SourceMap.sourcePosition?_eq_covering?, covering?_append_cons before after piece inside]
  have nonempty : piece.text ≠ [] := Text.byteLength_pos_iff.mp (by omega)
  rw [Piece.mapping?, if_neg nonempty, Piece.sourceAt?, Option.map_map]
  refine congrArg (Option.map · piece.source?) (funext fun source => ?_)
  simp only [Function.comp_apply, Mapping.toSource, Mapping.isVerbatim, Span.length_ofLength,
    decide_eq_true_eq, Span.start_ofLength, Nat.add_sub_cancel_left]

/-! ## From the source to the generated text -/

/-- A mapping of a verbatim piece answers the offsets of its source span, each in its place. -/
theorem generatedPosition?_toList (piece : Piece) {start : Nat}
    (verbatim : piece.source? = some (.ofLength start piece.text.byteLength))
    (offset target : Nat) :
    ((piece.mapping? offset).toList.find? (·.source.contains target)).map (·.toGenerated target) =
      if start ≤ target ∧ target < start + piece.text.byteLength then
        some (offset + (target - start))
      else none := by
  by_cases empty : piece.text = []
  · rw [if_neg (by simp only [empty, Text.byteLength_nil]; omega)]
    simp [Piece.mapping?, empty]
  · by_cases covered : start ≤ target ∧ target < start + piece.text.byteLength
    · simp [Piece.mapping?, empty, verbatim, Span.ofLength, Mapping.toGenerated,
        Mapping.isVerbatim, Span.length, covered]
    · simp [Piece.mapping?, empty, verbatim, Span.ofLength, covered]

end Assembly

end ComponentTsx
