import ComponentTsx.Proofs.SourceMap.Segments
import Mathlib.Data.List.Pairwise

/-!
# Looking up positions in an artifact

A position belongs to the last segment that comes no later, as the segments are
strictly in order (`segmentAt?_eq_some`).  Inside a copied piece that segment is
the later one of where the piece begins and where the line begins, so the answer
is the true line in the source, and its column is short of the true one by the
distance to the segment (`lookup_copied`).
-/

namespace ComponentTsx

set_option autoImplicit false

/-! ## The segment of a position -/

namespace SourceMap

namespace Artifact

variable {artifact : Artifact} {segment : Segment} {position : Position}

/-- The segment of a position is one of the artifact's, and does not come after the position. -/
theorem reached_of_segmentAt?_eq_some (found : artifact.segmentAt? position = some segment) :
    segment ∈ artifact.segments ∧ segment.generated.le position = true := by
  rw [segmentAt?] at found
  cases exact : artifact.segments.find? (·.generated = position) with
  | some other =>
      rw [exact] at found
      obtain rfl := Option.some.inj found
      have same := List.find?_some exact
      rw [decide_eq_true_eq] at same
      exact ⟨List.mem_of_find?_eq_some exact, same ▸ Position.le_refl _⟩
  | none =>
      rw [exact] at found
      have member := List.mem_of_getLast? found
      exact ⟨(List.takeWhile_sublist _).subset member,
        List.mem_takeWhile_imp (p := fun other : Segment => other.generated.le position) member⟩

/-- Of the segments that a position has reached, its own comes last. -/
theorem exists_segmentAt?_eq_some (ordered : artifact.segments.Pairwise Segment.IsBefore)
    (member : segment ∈ artifact.segments) (reached : segment.generated.le position = true) :
    ∃ last, artifact.segmentAt? position = some last ∧
      segment.generated.le last.generated = true := by
  rw [segmentAt?]
  cases exact : artifact.segments.find? (·.generated = position) with
  | some other =>
      have same := List.find?_some exact
      rw [decide_eq_true_eq] at same
      exact ⟨other, rfl, same ▸ reached⟩
  | none =>
      obtain ⟨before, after, split⟩ := List.append_of_mem member
      rw [split, List.pairwise_append, List.pairwise_cons] at ordered
      have earlier : ∀ other ∈ before, other.generated.le position = true := fun other isOther =>
        (Position.IsBefore.trans_le
          (ordered.2.2 other isOther segment (List.mem_cons_self ..)) reached).le
      rw [split, List.takeWhile_append_of_pos earlier, List.takeWhile_cons, if_pos reached,
        List.getLast?_append_cons]
      cases last : (segment :: after.takeWhile (·.generated.le position)).getLast? with
      | none => exact absurd (List.getLast?_eq_none_iff.mp last) (List.cons_ne_nil _ _)
      | some other =>
          refine ⟨other, rfl, ?_⟩
          rcases List.mem_cons.mp (List.mem_of_getLast? last) with rfl | later
          · exact Position.le_refl _
          · exact (ordered.2.1.1 other ((List.takeWhile_sublist _).subset later)).le

/-- A position belongs to the last segment that comes no later, if the segments are in order. -/
theorem segmentAt?_eq_some (ordered : artifact.segments.Pairwise Segment.IsBefore)
    (member : segment ∈ artifact.segments) (reached : segment.generated.le position = true)
    (later : ∀ other ∈ artifact.segments, segment.IsBefore other →
      position.IsBefore other.generated) :
    artifact.segmentAt? position = some segment := by
  obtain ⟨last, found, order⟩ := exists_segmentAt?_eq_some ordered member reached
  obtain ⟨isSegment, lastReached⟩ := reached_of_segmentAt?_eq_some found
  by_cases same : segment = last
  · rw [found, same]
  · have symmetric : Std.Symm fun first second : Segment =>
        first.IsBefore second ∨ second.IsBefore first := ⟨fun _ _ => Or.symm⟩
    have apart : artifact.segments.Pairwise fun first second =>
        first.IsBefore second ∨ second.IsBefore first := ordered.imp Or.inl
    rcases apart.forall member isSegment same with isLater | isEarlier
    · rw [(later last isSegment isLater).not_le] at lastReached
      cases lastReached
    · rw [Position.IsBefore.not_le isEarlier] at order
      cases order

end Artifact

/-! ## Positions in copied text -/

section Copied

variable {before after : Assembly} {start : Nat}

/-- The mapping of a copied piece. -/
def copiedMapping (before : Assembly) (start : Nat) (text : Text) : Mapping :=
  ⟨.ofLength before.text.byteLength text.byteLength, .ofLength start text.byteLength⟩

/-- The mappings beside that of a copied piece are those of the pieces before it and after it. -/
theorem mem_mappings_append_copied {text : Text} (nonempty : text ≠ []) {mapping : Mapping} :
    mapping ∈ (Assembly.sourceMap (before ++ .copied start text :: after)).mappings ↔
      mapping ∈ before.mappingsFrom 0 ∨ mapping = copiedMapping before start text ∨
        mapping ∈ after.mappingsFrom (before.text.byteLength + text.byteLength) := by
  simp [Assembly.sourceMap, Assembly.mappingsFrom_append, Piece.mapping?, Piece.text, nonempty,
    Piece.source?, copiedMapping]

variable {whole line tail : Text}

/-- A copied piece has a segment after each of its line feeds, unless it ends there. -/
theorem mem_segmentOffsets_copied (inside : tail ≠ [])
    (lines : whole = [] ∨ ∃ body, whole = body ++ ['\n']) (rest : Text) :
    (before.text ++ whole).byteLength ∈
      (copiedMapping before start (whole ++ line ++ tail)).segmentOffsets
        (before.text ++ (whole ++ line ++ tail) ++ rest) := by
  rcases lines with rfl | ⟨body, rfl⟩
  · exact List.mem_cons.mpr (.inl (by simp [copiedMapping]))
  · have := Text.byteLength_pos_iff.mpr inside
    have positive : 0 < Text.byteLength (body ++ ['\n']) := Text.byteLength_pos_iff.mpr (by simp)
    have verbatim :
        (copiedMapping before start (body ++ ['\n'] ++ line ++ tail)).isVerbatim = true := by
      simp [copiedMapping, Mapping.isVerbatim]
    refine List.mem_cons_of_mem _ ?_
    rw [if_pos verbatim]
    refine List.mem_filter.mpr ⟨Text.mem_lineStarts_iff.mpr
      ⟨before.text ++ body, line ++ tail ++ rest, by simp, by simp⟩, ?_⟩
    simp only [copiedMapping, Span.start_ofLength, Span.stop_ofLength, decide_eq_true_eq,
      Text.byteLength_append] at positive ⊢
    omega

/-- No line begins inside a line. -/
theorem lt_of_mem_lineStarts {first line : Text} (noBreak : '\n' ∉ line) (rest : Text)
    {offset : Nat} (member : offset ∈ Text.lineStarts (first ++ line ++ rest))
    (beyond : first.byteLength < offset) : (first ++ line).byteLength < offset := by
  rw [Text.lineStarts_append, Text.lineStarts_append, Text.lineStarts_eq_nil noBreak, List.map_nil,
    List.append_nil] at member
  rcases List.mem_append.mp member with earlier | later
  · have := Text.bounds_of_mem_lineStarts earlier
    omega
  · obtain ⟨distance, isLine, rfl⟩ := List.mem_map.mp later
    have := Text.bounds_of_mem_lineStarts isLine
    omega

/-- After the beginning of a line in a copied piece, the next segment is beyond the line. -/
theorem lt_of_mem_segmentOffsets (inside : tail ≠ []) (noBreak : '\n' ∉ line) {mapping : Mapping}
    (isMapping : mapping ∈
      (Assembly.sourceMap (before ++ .copied start (whole ++ line ++ tail) :: after)).mappings)
    {offset : Nat}
    (member : offset ∈
      mapping.segmentOffsets (before.text ++ (whole ++ line ++ tail) ++ after.text))
    (beyond : (before.text ++ whole).byteLength < offset) :
    (before.text ++ whole ++ line).byteLength < offset := by
  have positive := Text.byteLength_pos_iff.mpr inside
  rcases (mem_mappings_append_copied (by simp [inside])).mp isMapping with
    isBefore | rfl | isAfter
  · have bounds := Assembly.bounds_of_mem_mappingsFrom isBefore
    have := bounds_of_mem_segmentOffsets bounds.2.1 member
    rw [Text.byteLength_append] at beyond
    omega
  · rcases List.mem_cons.mp member with rfl | isLine
    · simp only [copiedMapping, Span.start_ofLength, Text.byteLength_append] at beyond
      omega
    · split at isLine
      · refine lt_of_mem_lineStarts noBreak (tail ++ after.text) ?_ beyond
        simpa using (List.mem_filter.mp isLine).1
      · cases isLine
  · have bounds := Assembly.bounds_of_mem_mappingsFrom isAfter
    have := bounds_of_mem_segmentOffsets bounds.2.1 member
    simp only [Text.byteLength_append] at *
    omega

/-- A position in a line of a copied piece leads to the source of where the line begins there. -/
theorem lookup_append_copied (inside : tail ≠ []) (noBreak : '\n' ∉ line)
    (lines : whole = [] ∨ ∃ body, whole = body ++ ['\n']) (sourceBefore sourceAfter : Text)
    (file sourceName : Text) :
    let assembly : Assembly :=
      before ++ .copied sourceBefore.byteLength (whole ++ line ++ tail) :: after
    (assembly.sourceMap.artifact file sourceName
        (sourceBefore ++ (whole ++ line ++ tail) ++ sourceAfter) assembly.text).lookup
      (.after (before.text ++ whole ++ line)) = some (.after (sourceBefore ++ whole)) := by
  intro assembly
  let source : Text := sourceBefore ++ (whole ++ line ++ tail) ++ sourceAfter
  have generated : assembly.text = before.text ++ (whole ++ line ++ tail) ++ after.text := by
    simp [assembly, Piece.text]
  let mapping := copiedMapping before sourceBefore.byteLength (whole ++ line ++ tail)
  let segment := mapping.segmentAt source assembly.text (before.text ++ whole).byteLength
  have isMapping : mapping ∈ assembly.sourceMap.mappings :=
    (mem_mappings_append_copied (by simp [inside])).mpr (.inr (.inl rfl))
  have place : segment = ⟨.after (before.text ++ whole), .after (sourceBefore ++ whole)⟩ := by
    have inGenerated := Text.positionAt_append (before.text ++ whole) (line ++ tail ++ after.text)
    have inSource := Text.positionAt_append (sourceBefore ++ whole) (line ++ tail ++ sourceAfter)
    simp only [List.append_assoc] at inGenerated inSource
    simp only [segment, Mapping.segmentAt, mapping, copiedMapping, source, generated,
      List.append_assoc, inGenerated, Span.start_ofLength]
    rw [Text.byteLength_append before.text, Nat.add_sub_cancel_left, ← Text.byteLength_append,
      inSource]
  have member : segment ∈ assembly.sourceMap.listedSegments source assembly.text := by
    refine List.mem_flatMap.mpr ⟨mapping, isMapping, List.mem_map_of_mem ?_⟩
    rw [generated]
    exact mem_segmentOffsets_copied inside lines after.text
  have found : (assembly.sourceMap.artifact file sourceName source assembly.text).segmentAt?
      (.after (before.text ++ whole ++ line)) = some segment := by
    -- The segment is reached, and all later ones are beyond the line.
    refine Artifact.segmentAt?_eq_some ?_ ?_ ?_ fun other isOther order => ?_
    · rw [segments_artifact]
      exact pairwise_listedSegments assembly source
    · rw [segments_artifact]
      exact member
    · rw [place]
      exact Position.le_after_append _ _
    · rw [segments_artifact] at isOther
      obtain ⟨owner, isOwner, isOffset⟩ := List.mem_flatMap.mp isOther
      obtain ⟨offset, inside', rfl⟩ := List.mem_map.mp isOffset
      have boundary := isBoundary_of_mem_flatMap assembly
        (List.mem_flatMap.mpr ⟨owner, isOwner, inside'⟩)
      have first : Text.IsBoundary assembly.text (before.text ++ whole).byteLength :=
        ⟨_, line ++ tail ++ after.text, by simp [generated], rfl⟩
      have last : Text.IsBoundary assembly.text (before.text ++ whole ++ line).byteLength :=
        ⟨_, tail ++ after.text, by simp [generated], rfl⟩
      have beyond : (before.text ++ whole).byteLength < offset := by
        by_contra short
        have early := Text.le_positionAt boundary first (Nat.le_of_not_lt short)
        exact Bool.false_ne_true ((Position.IsBefore.not_le order).symm.trans early)
      have position : assembly.text.positionAt (before.text ++ whole ++ line).byteLength =
          .after (before.text ++ whole ++ line) := by
        have atEnd := Text.positionAt_append (before.text ++ whole ++ line) (tail ++ after.text)
        rwa [show before.text ++ whole ++ line ++ (tail ++ after.text) = assembly.text by
          simp [generated]] at atEnd
      rw [generated] at inside'
      rw [← position]
      exact Text.isBefore_positionAt last boundary
        (lt_of_mem_segmentOffsets inside noBreak isOwner inside' beyond)
  have sameLine :
      segment.generated.line = (Position.after (before.text ++ whole ++ line)).line := by
    rw [place, Position.after_append_of_notMem noBreak]
  rw [Artifact.lookup, found, Option.filter_some, if_pos (by simpa using sameLine), place]
  rfl

end Copied

/--
**Copied text leads to its true line.**  A place in a copied piece leads to the source of the nearer
of where the piece begins and where its line begins.  That is on the line of the source which the
place was copied from, and as far to the left of it as the generated text between the two is long.
-/
theorem lookup_copied {source text : Text} {before after : Assembly} {start offset : Nat}
    (copied : source.slice? start (start + text.byteLength) = some text)
    (boundary : (Assembly.text (before ++ .copied start text :: after)).IsBoundary offset)
    (inside : (Span.ofLength before.text.byteLength text.byteLength).contains offset = true)
    (file sourceName : Text) :
    let assembly : Assembly := before ++ .copied start text :: after
    let generated := assembly.text
    let nearest := max before.text.byteLength (generated.lineStartOf offset)
    let origin := fun place => start + (place - before.text.byteLength)
    ∃ found between,
      (assembly.sourceMap.artifact file sourceName source generated).lookup
          (generated.positionAt offset) = some found ∧
        found = source.positionAt (origin nearest) ∧
        generated.slice? nearest offset = some between ∧
        source.positionAt (origin offset) =
          ⟨found.line, found.column + between.utf16Length⟩ := by
  intro assembly generated nearest origin
  have pieces : generated = before.text ++ text ++ after.text := by
    simp [generated, assembly, Piece.text]
  obtain ⟨sourceBefore, sourceAfter, rfl, rfl⟩ := Text.exists_append_of_slice? copied
  rw [Span.contains_iff, Span.start_ofLength, Span.stop_ofLength] at inside
  have isPlace : Text.IsBoundary (before.text ++ text ++ after.text) offset := by
    rwa [← pieces]
  obtain ⟨head, tail, rfl, nonempty, rfl⟩ := isPlace.exists_cut inside.1 inside.2
  -- The place is on the line that begins after `whole`, where the nearest segment is.
  obtain ⟨whole, lines, isWhole⟩ := head.exists_lastLine_append
  have noBreak := head.break_notMem_lastLine
  generalize head.lastLine = line at lines noBreak
  subst lines
  rw [← List.append_assoc before.text]
  have parts : generated = before.text ++ whole ++ line ++ (tail ++ after.text) := by
    simp [pieces]
  have isNearest : nearest = Text.byteLength (before.text ++ whole) := by
    simp only [nearest, parts, ← List.append_assoc before.text]
    exact Text.max_lineStartOf_append noBreak isWhole before.text _
  have isOrigin (part : Text) : origin (Text.byteLength (before.text ++ part)) =
      Text.byteLength (sourceBefore ++ part) := by
    simp [origin]
  refine ⟨.after (sourceBefore ++ whole), line, ?_, ?_, ?_, ?_⟩
  · rw [parts, Text.positionAt_append, ← parts]
    exact lookup_append_copied nonempty noBreak isWhole sourceBefore sourceAfter file sourceName
  · rw [isNearest, isOrigin]
    have := Text.positionAt_append (sourceBefore ++ whole) (line ++ tail ++ sourceAfter)
    simpa using this.symm
  · rw [isNearest, parts, Text.byteLength_append _ line]
    exact Text.slice?_append _ _ _
  · rw [List.append_assoc before.text, isOrigin, ← List.append_assoc]
    have := Text.positionAt_append (sourceBefore ++ whole ++ line) (tail ++ sourceAfter)
    rw [← Position.after_append_of_notMem noBreak]
    simpa using this

/-- A place behind an astral character on the second line of a copied piece. -/
theorem lookup_copied_second_line :
    let source : Text := "--😀\né😀=1".toList
    let copy : Text := "😀\né😀=1".toList
    let assembly : Assembly := [.synthetic "<>\n".toList, .copied 2 copy]
    source.slice? 2 15 = some copy ∧ assembly.text.IsBoundary 14 ∧
      (Span.ofLength 3 12).contains 14 = true ∧
      (assembly.sourceMap.artifact [] [] source assembly.text).lookup ⟨2, 3⟩ = some ⟨1, 0⟩ ∧
      source.positionAt 13 = ⟨1, 3⟩ := by
  intro source copy assembly
  have copied : source.slice? 2 15 = some copy := by decide
  have boundary : assembly.text.IsBoundary 14 :=
    ⟨"<>\n😀\né😀".toList, "=1".toList, by decide, by decide⟩
  have inside : (Span.ofLength 3 12).contains 14 = true := by decide
  obtain ⟨found, between, looked, isFound, cut, origin⟩ :=
    @lookup_copied source copy [.synthetic "<>\n".toList] [] 2 14 copied boundary inside [] []
  have start : found = ⟨1, 0⟩ := isFound.trans (by decide)
  refine ⟨copied, boundary, inside, ?_, ?_⟩
  · rw [← start]
    exact looked
  · have gap : between = "é😀".toList := (Option.some.inj cut).symm
    rw [start, gap] at origin
    exact origin

end SourceMap

end ComponentTsx
