import ComponentTsx.Proofs.SourceMap.Lookup

/-!
# Looking up text that stands for nothing

Segments tell where mapped text begins, and nothing tells where it ends: past
its end, and up to the end of the line, an artifact still answers with the last
segment of the line.  So a position has an answer exactly when some segment is
on its line and not after it (`isSome_lookup_artifact_iff`).

Text that stands for nothing has no answer, then, if a line feed comes right
after every mapped part, for nothing but that line feed is left on the line.
The line feed itself has an answer, unless it is alone on its line
(`Assembly.BreaksAfterCopies.lookup_of_unmapped`).
-/

namespace ComponentTsx

set_option autoImplicit false

/-! ## Places on one line -/

theorem Position.line_le_of_le {first second : Position} (order : first.le second = true) :
    first.line ≤ second.line := by
  simp only [Position.le, Bool.or_eq_true, Bool.and_eq_true, decide_eq_true_eq] at order
  omega

namespace Text

/-- A character boundary is where a text can be cut. -/
theorem isBoundary_iff {text : Text} {offset : Nat} :
    text.IsBoundary offset ↔ (text.dropBytes? offset).isSome = true := by
  constructor
  · rintro ⟨before, after, rfl, rfl⟩
    rw [dropBytes?_append, Option.isSome_some]
  · intro cut
    obtain ⟨after, dropped⟩ := Option.isSome_iff_exists.mp cut
    obtain ⟨before, whole, length⟩ := exists_append_of_dropBytes? dropped
    exact ⟨before, after, whole, length⟩

instance (text : Text) (offset : Nat) : Decidable (text.IsBoundary offset) :=
  decidable_of_iff _ isBoundary_iff.symm

/-- Two character boundaries are on one line if the line of the later one begins by the other. -/
theorem line_positionAt_eq_iff {text : Text} {first second : Nat} (isFirst : text.IsBoundary first)
    (isSecond : text.IsBoundary second) (order : first ≤ second) :
    (text.positionAt first).line = (text.positionAt second).line ↔
      text.lineStartOf second ≤ first := by
  obtain ⟨before, after, split, rfl⟩ := isFirst
  obtain ⟨longer, rest, rfl, rfl⟩ := isSecond
  obtain ⟨between, rfl⟩ := exists_append_of_byteLength_le split.symm order
  rw [positionAt_append, split, positionAt_append, ← split, lineStartOf, upTo_append]
  by_cases breaks : '\n' ∈ between
  · have feeds := List.count_pos_iff.mpr breaks
    have noBreak := between.break_notMem_lastLine
    obtain ⟨whole, lines, isWhole⟩ := between.exists_lastLine_append
    generalize between.lastLine = line at lines noBreak
    subst lines
    rcases isWhole with rfl | ⟨body, rfl⟩
    · exact absurd breaks noBreak
    · -- The line begins after a line feed between the two.
      rw [← List.append_assoc before, lastLine_eq_of_append noBreak
        (.inr ⟨before ++ body, (List.append_assoc _ _ _).symm⟩)]
      have : 0 < byteLength ['\n'] := by decide
      simp only [Position.after, List.count_append, byteLength_append] at feeds this ⊢
      omega
  · rw [lastLine_append_of_notMem breaks]
    simp only [Position.after, List.count_append, List.count_eq_zero.mpr breaks, byteLength_append]
    omega

/-- The line of a place after a line feed begins after that line feed. -/
theorem lt_lineStartOf {text rest : Text} {offset place : Nat} (boundary : text.IsBoundary offset)
    (isBreak : text.dropBytes? place = some ('\n' :: rest)) (before : place < offset) :
    place < text.lineStartOf offset := by
  obtain ⟨first, rfl, rfl⟩ := exists_append_of_dropBytes? isBreak
  have isPlace : IsBoundary (first ++ '\n' :: rest) first.byteLength := ⟨first, _, rfl, rfl⟩
  have sameLine := line_positionAt_eq_iff isPlace boundary before.le
  obtain ⟨longer, after, split, rfl⟩ := boundary
  obtain ⟨between, rfl⟩ := exists_append_of_byteLength_le split before.le
  cases between with
  | nil => exact absurd before (by simp)
  | cons char more =>
      obtain ⟨rfl, -⟩ : '\n' = char ∧ rest = more ++ after := by simpa using split
      rw [positionAt_append, split, positionAt_append, ← split] at sameLine
      by_contra early
      have feeds := sameLine.mpr (Nat.le_of_not_lt early)
      simp only [Position.after, List.count_append, List.count_cons_self] at feeds
      omega

/-- A line begins with the text or right after a line feed. -/
theorem lineStartOf_eq_zero_or_mem {text : Text} {offset : Nat}
    (boundary : text.IsBoundary offset) :
    text.lineStartOf offset = 0 ∨ text.lineStartOf offset ∈ text.lineStarts := by
  obtain ⟨before, after, rfl, rfl⟩ := boundary
  obtain ⟨whole, split, lines⟩ := before.exists_lastLine_append
  have start : lineStartOf (before ++ after) before.byteLength = whole.byteLength := by
    have bytes := congrArg byteLength split
    rw [byteLength_append] at bytes
    rw [lineStartOf, upTo_append]
    omega
  rw [start]
  rcases lines with rfl | ⟨body, rfl⟩
  · exact .inl rfl
  · refine .inr (mem_lineStarts_iff.mpr ⟨body, before.lastLine ++ after, ?_, rfl⟩)
    rw [← List.append_assoc, ← split]

end Text

/-! ## When a position has an answer -/

namespace SourceMap

namespace Artifact

variable {artifact : Artifact} {position : Position}

/-- **A position has an answer if some segment is on its line and not after it.** -/
theorem isSome_lookup_iff (ordered : artifact.segments.Pairwise Segment.IsBefore) :
    (artifact.lookup position).isSome ↔
      ∃ segment ∈ artifact.segments, segment.generated.le position = true ∧
        segment.generated.line = position.line := by
  rw [lookup, Option.isSome_map]
  constructor
  · intro answered
    obtain ⟨segment, found⟩ := Option.isSome_iff_exists.mp answered
    rw [Option.filter_eq_some_iff, decide_eq_true_eq] at found
    obtain ⟨member, reached⟩ := reached_of_segmentAt?_eq_some found.1
    exact ⟨segment, member, reached, found.2⟩
  · rintro ⟨segment, member, reached, sameLine⟩
    obtain ⟨last, found, order⟩ := exists_segmentAt?_eq_some ordered member reached
    have lower := Position.line_le_of_le order
    have upper := Position.line_le_of_le (reached_of_segmentAt?_eq_some found).2
    have lastLine : last.generated.line = position.line := by omega
    rw [found, Option.filter_some, if_pos (decide_eq_true lastLine), Option.isSome_some]

end Artifact

/-- The segments that answer for a character boundary, by their offsets. -/
theorem isSome_lookup_artifact_iff (assembly : Assembly) {offset : Nat}
    (boundary : assembly.text.IsBoundary offset) (file sourceName sourceText : Text) :
    ((assembly.sourceMap.artifact file sourceName sourceText assembly.text).lookup
        (assembly.text.positionAt offset)).isSome ↔
      ∃ mapping ∈ assembly.sourceMap.mappings, ∃ start ∈ mapping.segmentOffsets assembly.text,
        assembly.text.lineStartOf offset ≤ start ∧ start ≤ offset := by
  have isBoundary {mapping : Mapping} (isMapping : mapping ∈ assembly.sourceMap.mappings)
      {start : Nat} (member : start ∈ mapping.segmentOffsets assembly.text) :
      assembly.text.IsBoundary start :=
    isBoundary_of_mem_flatMap assembly (List.mem_flatMap.mpr ⟨mapping, isMapping, member⟩)
  rw [Artifact.isSome_lookup_iff (by
    rw [segments_artifact]
    exact pairwise_listedSegments assembly sourceText), segments_artifact]
  constructor
  · rintro ⟨segment, member, reached, sameLine⟩
    obtain ⟨mapping, isMapping, isOffset⟩ := List.mem_flatMap.mp member
    obtain ⟨start, isStart, rfl⟩ := List.mem_map.mp isOffset
    have isFirst := isBoundary isMapping isStart
    have order : start ≤ offset := by
      by_contra beyond
      have before := Text.isBefore_positionAt boundary isFirst (Nat.lt_of_not_le beyond)
      exact Bool.false_ne_true (before.not_le.symm.trans reached)
    exact ⟨mapping, isMapping, start, isStart,
      (Text.line_positionAt_eq_iff isFirst boundary order).mp sameLine, order⟩
  · rintro ⟨mapping, isMapping, start, isStart, sameLine, order⟩
    have isFirst := isBoundary isMapping isStart
    exact ⟨mapping.segmentAt sourceText assembly.text start,
      List.mem_flatMap.mpr ⟨mapping, isMapping, List.mem_map_of_mem isStart⟩,
      Text.le_positionAt isFirst boundary order,
      (Text.line_positionAt_eq_iff isFirst boundary order).mpr sameLine⟩

/-- Whether an offset is that of a line feed right after a mapped part of the generated text. -/
def IsBreakAfterMapping (map : SourceMap) (generatedText : Text) (offset : Nat) : Prop :=
  (∃ mapping ∈ map.mappings, mapping.generated.stop = offset) ∧
    ∃ rest, generatedText.dropBytes? offset = some ('\n' :: rest)

instance (map : SourceMap) (generatedText : Text) (offset : Nat) :
    Decidable (map.IsBreakAfterMapping generatedText offset) :=
  decidable_of_iff ((∃ mapping ∈ map.mappings, mapping.generated.stop = offset) ∧
      (generatedText.dropBytes? offset).bind List.head? = some '\n') (by
    simp [IsBreakAfterMapping, Option.bind_eq_some_iff, List.head?_eq_some_iff])

end SourceMap

/-! ## Text that stands for nothing -/

namespace Assembly

variable {assembly : Assembly} {offset : Nat}

/-- An offset in a mapping has the source offset that the mapping gives it. -/
theorem sourcePosition?_of_contains {mapping : Mapping}
    (member : mapping ∈ assembly.sourceMap.mappings)
    (inside : mapping.generated.contains offset = true) :
    assembly.sourceMap.sourcePosition? offset = some (mapping.toSource offset) := by
  have bounds := Span.contains_iff.mp inside
  have ordered := assembly.pairwise_mappingsFrom 0
  obtain ⟨before, after, split⟩ := List.append_of_mem member
  have layout : assembly.mappingsFrom 0 = before ++ mapping :: after := split
  rw [layout, List.pairwise_append, List.pairwise_cons] at ordered
  have earlier : ∀ other ∈ before, decide (other.generated.start ≤ offset) = true := by
    intro other isOther
    have nonempty := (bounds_of_mem_mappingsFrom (layout ▸ List.mem_append_left _ isOther)).2.1
    have := ordered.2.2 other isOther mapping (List.mem_cons_self ..)
    exact decide_eq_true (by omega)
  have later : after.takeWhile (fun other => decide (other.generated.start ≤ offset)) = [] := by
    rw [List.takeWhile_eq_nil_iff]
    intro positive
    have := ordered.2.1.1 _ (List.get_mem _ ⟨0, positive⟩)
    simp only [decide_eq_true_eq]
    omega
  have last : assembly.sourceMap.lastStartingBy? offset = some mapping := by
    rw [SourceMap.lastStartingBy?, split, List.takeWhile_append_of_pos earlier,
      List.takeWhile_cons, if_pos (decide_eq_true bounds.1), later, List.getLast?_concat]
  simp only [SourceMap.sourcePosition?, last, bind, Option.bind, if_pos inside]

/-- Whether each mapped part of the text is a copy that a line feed follows. -/
structure BreaksAfterCopies (assembly : Assembly) : Prop where
  isVerbatim : ∀ mapping ∈ assembly.sourceMap.mappings, mapping.isVerbatim = true
  followed : ∀ mapping ∈ assembly.sourceMap.mappings,
    ∃ rest, assembly.text.dropBytes? mapping.generated.stop = some ('\n' :: rest)

namespace BreaksAfterCopies

/-- The line feed after a copy has a segment on its line, unless it is alone there. -/
theorem exists_segmentOffset (breaks : assembly.BreaksAfterCopies) {mapping : Mapping}
    (isMapping : mapping ∈ assembly.sourceMap.mappings)
    (boundary : assembly.text.IsBoundary mapping.generated.stop)
    (shared : assembly.text.lineStartOf mapping.generated.stop < mapping.generated.stop) :
    ∃ start ∈ mapping.segmentOffsets assembly.text,
      assembly.text.lineStartOf mapping.generated.stop ≤ start ∧
        start ≤ mapping.generated.stop := by
  have nonempty := (bounds_of_mem_mappingsFrom isMapping).2.1
  by_cases early : assembly.text.lineStartOf mapping.generated.stop ≤ mapping.generated.start
  · exact ⟨_, List.mem_cons_self .., early, nonempty.le⟩
  · rcases Text.lineStartOf_eq_zero_or_mem boundary with first | line
    · omega
    · refine ⟨_, List.mem_cons_of_mem _ ?_, Nat.le_refl _, shared.le⟩
      rw [if_pos (breaks.isVerbatim mapping isMapping)]
      exact List.mem_filter.mpr ⟨line, decide_eq_true ⟨Nat.lt_of_not_le early, shared⟩⟩

end BreaksAfterCopies

/--
**Text that stands for nothing has no answer, but for the line feeds after copies.**  Each of those
has an answer unless it is alone on its line.
-/
theorem BreaksAfterCopies.lookup_of_unmapped (breaks : assembly.BreaksAfterCopies)
    (boundary : assembly.text.IsBoundary offset)
    (unmapped : assembly.sourceMap.sourcePosition? offset = none)
    (file sourceName sourceText : Text) :
    let found := (assembly.sourceMap.artifact file sourceName sourceText assembly.text).lookup
      (assembly.text.positionAt offset)
    (¬ assembly.sourceMap.IsBreakAfterMapping assembly.text offset → found = none) ∧
      (assembly.sourceMap.IsBreakAfterMapping assembly.text offset →
        (found.isSome ↔ assembly.text.lineStartOf offset < offset)) := by
  intro found
  have answered : found.isSome ↔ _ :=
    SourceMap.isSome_lookup_artifact_iff assembly boundary file sourceName sourceText
  -- A segment that answers is in a mapping that stops by the offset, on the offset's line.
  have stops {mapping : Mapping} (isMapping : mapping ∈ assembly.sourceMap.mappings) {start : Nat}
      (isStart : start ∈ mapping.segmentOffsets assembly.text)
      (sameLine : assembly.text.lineStartOf offset ≤ start) (order : start ≤ offset) :
      mapping.generated.stop = offset ∧ start < offset := by
    have nonempty := (bounds_of_mem_mappingsFrom isMapping).2.1
    have inside := SourceMap.bounds_of_mem_segmentOffsets nonempty isStart
    have outside : ¬ mapping.generated.contains offset = true := fun covered =>
      Option.some_ne_none _ ((sourcePosition?_of_contains isMapping covered).symm.trans unmapped)
    rw [Span.contains_iff] at outside
    obtain ⟨rest, isBreak⟩ := breaks.followed mapping isMapping
    have := Text.lt_lineStartOf boundary isBreak
    omega
  refine ⟨fun isOther => ?_, fun isBreak => ?_⟩
  · rw [← Option.not_isSome_iff_eq_none, answered]
    rintro ⟨mapping, isMapping, start, isStart, sameLine, order⟩
    obtain ⟨rfl, -⟩ := stops isMapping isStart sameLine order
    exact isOther ⟨⟨mapping, isMapping, rfl⟩, breaks.followed mapping isMapping⟩
  · rw [answered]
    constructor
    · rintro ⟨mapping, isMapping, start, isStart, sameLine, order⟩
      exact Nat.lt_of_le_of_lt sameLine (stops isMapping isStart sameLine order).2
    · intro shared
      obtain ⟨⟨mapping, isMapping, rfl⟩, -⟩ := isBreak
      exact ⟨mapping, isMapping, breaks.exists_segmentOffset isMapping boundary shared⟩

end Assembly

end ComponentTsx
