import ComponentTsx.Proofs.Assembly.Lookup
import ComponentTsx.Proofs.LineIndex.Position
import ComponentTsx.SourceMap.Artifact
import Mathlib.Data.List.Basic

/-!
# The segments of a source map

The artifact of an assembly has one segment where each mapping begins, and one
at each line of the generated text that begins strictly inside a verbatim
mapping (`SourceMap.listedSegments`, `segments_artifact`).  Mappings lie one
after the other and begin at character boundaries, so the segments are strictly
in the order of their generated positions (`pairwise_listedSegments`): nothing
is left to sort, and no two segments are the same.
-/

namespace ComponentTsx

set_option autoImplicit false

/-! ## What the segments are -/

namespace Mapping

/--
The generated offsets at which a mapping has segments: where it begins and, if it is verbatim, where
lines of the generated text begin strictly inside it.
-/
def segmentOffsets (mapping : Mapping) (generatedText : Text) : List Nat :=
  mapping.generated.start ::
    if mapping.isVerbatim then
      generatedText.lineStarts.filter fun offset =>
        mapping.generated.start < offset ∧ offset < mapping.generated.stop
    else []

/-- The segment of a mapping at a generated offset: the position there and the one it came from. -/
def segmentAt (mapping : Mapping) (sourceText generatedText : Text) (offset : Nat) :
    SourceMap.Segment :=
  ⟨generatedText.positionAt offset,
    sourceText.positionAt (mapping.source.start + (offset - mapping.generated.start))⟩

end Mapping

/-- Whether the generated position of the first segment comes before that of the second. -/
def SourceMap.Segment.IsBefore (first second : Segment) : Prop :=
  first.generated.IsBefore second.generated

/-- The segments of the mappings of a source map, in the order of the mappings. -/
def SourceMap.listedSegments (map : SourceMap) (sourceText generatedText : Text) : List Segment :=
  map.mappings.flatMap fun mapping =>
    (mapping.segmentOffsets generatedText).map (mapping.segmentAt sourceText generatedText)

/-! ## Mappings lie one after the other -/

namespace Assembly

/-- A mapping stands for a part of the generated text. -/
theorem exists_part_of_mem_mappingsFrom {assembly : Assembly} {offset : Nat} {mapping : Mapping}
    (member : mapping ∈ assembly.mappingsFrom offset) :
    ∃ before part after, assembly.text = before ++ part ++ after ∧
      mapping.generated = .ofLength (offset + before.byteLength) part.byteLength := by
  induction assembly generalizing offset with
  | nil => cases member
  | cons piece rest ih =>
      rw [text_cons]
      rcases List.mem_append.mp member with here | later
      · obtain ⟨_, _, generated⟩ := Piece.mapping?_eq_some_iff.mp (Option.mem_toList.mp here)
        exact ⟨[], piece.text, text rest, rfl, generated⟩
      · obtain ⟨before, part, after, split, generated⟩ := ih later
        refine ⟨piece.text ++ before, part, after, by simp [split], ?_⟩
        rw [generated, Text.byteLength_append, Nat.add_assoc]

/-- Each mapping ends where the next one begins, or earlier. -/
theorem pairwise_mappingsFrom (assembly : Assembly) (offset : Nat) :
    (assembly.mappingsFrom offset).Pairwise fun first second =>
      first.generated.stop ≤ second.generated.start := by
  induction assembly generalizing offset with
  | nil => exact List.Pairwise.nil
  | cons piece rest ih =>
      refine List.pairwise_append.mpr ⟨?_, ih _, fun first isFirst second isSecond => ?_⟩
      · cases piece.mapping? offset <;> simp
      · obtain ⟨_, _, generated⟩ := Piece.mapping?_eq_some_iff.mp (Option.mem_toList.mp isFirst)
        rw [generated, Span.stop_ofLength]
        exact (bounds_of_mem_mappingsFrom isSecond).1

end Assembly

/-! ## The segments of one mapping -/

/-- The lines that begin strictly inside the middle of three parts are lines of that part. -/
theorem Text.filter_lineStarts_append (before part after : Text) :
    (lineStarts (before ++ part ++ after)).filter (fun offset =>
        byteLength before < offset ∧ offset < byteLength before + byteLength part) =
      ((lineStarts part).filter (· < byteLength part)).map (byteLength before + ·) := by
  have earlier : (lineStarts before).filter (fun offset =>
      byteLength before < offset ∧ offset < byteLength before + byteLength part) = [] := by
    refine List.filter_eq_nil_iff.mpr fun offset member => ?_
    have := bounds_of_mem_lineStarts member
    simp only [decide_eq_true_eq]
    omega
  have later : (lineStarts after).filter ((fun offset =>
      decide (byteLength before < offset ∧ offset < byteLength before + byteLength part)) ∘
        (byteLength (before ++ part) + ·)) = [] := by
    refine List.filter_eq_nil_iff.mpr fun offset _ => ?_
    simp only [Function.comp_apply, byteLength_append, decide_eq_true_eq]
    omega
  have inside : (lineStarts part).filter ((fun offset =>
      decide (byteLength before < offset ∧ offset < byteLength before + byteLength part)) ∘
        (byteLength before + ·)) = (lineStarts part).filter (· < byteLength part) := by
    refine List.filter_congr fun offset member => ?_
    have := bounds_of_mem_lineStarts member
    simp only [Function.comp_apply, decide_eq_decide]
    omega
  rw [lineStarts_append, lineStarts_append, List.filter_append, List.filter_append, earlier,
    List.filter_map, List.filter_map, later, inside, List.map_nil, List.append_nil,
    List.nil_append]

namespace SourceMap

theorem lineStartDistances_eq (text : Text) : lineStartDistances text = text.lineStarts := by
  rw [lineStartDistances, LineIndex.ofText, List.map_drop, Line.map_start_linesFrom]
  simp

/-- The distances at which a mapping has segments lead to its offsets. -/
theorem map_segmentDistances {mapping : Mapping} {before part after : Text}
    (place : mapping.generated = .ofLength before.byteLength part.byteLength) :
    (segmentDistances mapping (before ++ part ++ after)).map (mapping.generated.start + ·) =
      mapping.segmentOffsets (before ++ part ++ after) := by
  rw [segmentDistances, Mapping.segmentOffsets, place, Span.slice_ofLength_append,
    lineStartDistances_eq, Span.start_ofLength, Span.stop_ofLength, Span.length_ofLength,
    Text.filter_lineStarts_append]
  split <;> simp

/-- The segments of an assembly are those of its mappings. -/
theorem segments_eq_listedSegments (assembly : Assembly) (sourceText : Text) :
    assembly.sourceMap.segments sourceText assembly.text =
      assembly.sourceMap.listedSegments sourceText assembly.text := by
  refine List.flatMap_congr fun mapping member => ?_
  obtain ⟨before, part, after, split, place⟩ := Assembly.exists_part_of_mem_mappingsFrom member
  rw [Nat.zero_add] at place
  rw [split, ← map_segmentDistances place, List.map_map]
  refine List.map_congr_left fun distance _ => ?_
  simp only [LineIndex.positionUtf16_ofText, Function.comp_apply, Mapping.segmentAt,
    Nat.add_sub_cancel_left]

/-! ## The order of the segments -/

/-- The segments of a mapping lie inside it. -/
theorem bounds_of_mem_segmentOffsets {mapping : Mapping} {generatedText : Text} {offset : Nat}
    (nonempty : mapping.generated.start < mapping.generated.stop)
    (member : offset ∈ mapping.segmentOffsets generatedText) :
    mapping.generated.start ≤ offset ∧ offset < mapping.generated.stop := by
  rcases List.mem_cons.mp member with rfl | line
  · exact ⟨Nat.le_refl _, nonempty⟩
  · split at line
    · have := (List.mem_filter.mp line).2
      simp only [decide_eq_true_eq] at this
      omega
    · cases line

/-- Segments are at character boundaries. -/
theorem isBoundary_of_mem_segmentOffsets {mapping : Mapping} {before part after : Text}
    (place : mapping.generated = .ofLength before.byteLength part.byteLength) {offset : Nat}
    (member : offset ∈ mapping.segmentOffsets (before ++ part ++ after)) :
    Text.IsBoundary (before ++ part ++ after) offset := by
  rcases List.mem_cons.mp member with rfl | line
  · exact ⟨before, part ++ after, List.append_assoc _ _ _, by rw [place, Span.start_ofLength]⟩
  · split at line
    · obtain ⟨body, rest, split, rfl⟩ := Text.mem_lineStarts_iff.mp (List.mem_filter.mp line).1
      exact ⟨_, rest, split, rfl⟩
    · cases line

/-- The segments of a mapping are in order. -/
theorem pairwise_segmentOffsets (mapping : Mapping) (generatedText : Text) :
    (mapping.segmentOffsets generatedText).Pairwise (· < ·) := by
  refine List.pairwise_cons.mpr ⟨fun offset line => ?_, ?_⟩
  · split at line
    · have := (List.mem_filter.mp line).2
      simp only [decide_eq_true_eq] at this
      exact this.1
    · cases line
  · split
    · exact (Text.pairwise_lineStarts generatedText).filter _
    · exact List.Pairwise.nil

section Order

variable (assembly : Assembly)

/-- The offsets of all segments are in order. -/
theorem pairwise_flatMap_segmentOffsets :
    (assembly.sourceMap.mappings.flatMap (·.segmentOffsets assembly.text)).Pairwise (· < ·) := by
  refine List.pairwise_flatMap.mpr ⟨fun mapping _ => pairwise_segmentOffsets mapping _, ?_⟩
  refine (assembly.pairwise_mappingsFrom 0).imp_of_mem ?_
  intro first second isFirst isSecond order offset inFirst later inSecond
  have firstBounds := Assembly.bounds_of_mem_mappingsFrom isFirst
  have secondBounds := Assembly.bounds_of_mem_mappingsFrom isSecond
  have := bounds_of_mem_segmentOffsets firstBounds.2.1 inFirst
  have := bounds_of_mem_segmentOffsets secondBounds.2.1 inSecond
  omega

theorem isBoundary_of_mem_flatMap {offset : Nat}
    (member : offset ∈ assembly.sourceMap.mappings.flatMap (·.segmentOffsets assembly.text)) :
    assembly.text.IsBoundary offset := by
  obtain ⟨mapping, isMapping, inside⟩ := List.mem_flatMap.mp member
  obtain ⟨before, part, after, split, place⟩ := Assembly.exists_part_of_mem_mappingsFrom isMapping
  rw [Nat.zero_add] at place
  rw [split] at inside ⊢
  exact isBoundary_of_mem_segmentOffsets place inside

/-- **The segments are strictly in the order of their generated positions.** -/
theorem pairwise_listedSegments (sourceText : Text) :
    (assembly.sourceMap.listedSegments sourceText assembly.text).Pairwise Segment.IsBefore := by
  have positions : (assembly.sourceMap.listedSegments sourceText assembly.text).map (·.generated) =
      (assembly.sourceMap.mappings.flatMap (·.segmentOffsets assembly.text)).map
        assembly.text.positionAt := by
    simp only [listedSegments, List.map_flatMap, List.map_map]
    rfl
  refine List.Pairwise.of_map (fun segment : Segment => segment.generated)
    (fun _ _ before => before) ?_
  rw [positions, List.pairwise_map]
  exact (pairwise_flatMap_segmentOffsets assembly).imp_of_mem fun isFirst isSecond order =>
    Text.isBefore_positionAt (isBoundary_of_mem_flatMap assembly isFirst)
      (isBoundary_of_mem_flatMap assembly isSecond) order

/-- **The artifact has the segments of the mappings, and they need no sorting.** -/
theorem segments_artifact (file sourceName sourceText : Text) :
    (assembly.sourceMap.artifact file sourceName sourceText assembly.text).segments =
      assembly.sourceMap.listedSegments sourceText assembly.text := by
  rw [artifact, segments_eq_listedSegments]
  exact List.mergeSort_of_pairwise
    ((pairwise_listedSegments assembly sourceText).imp fun before => Position.IsBefore.le before)

end Order

end SourceMap

end ComponentTsx
