import ComponentTsx.Component.Offsets
import ComponentTsx.Proofs.Component.Closing
import ComponentTsx.Proofs.SourceMap.Offsets

/-!
# Offsets and parts come to the same

A splitter that finds offsets meets the parts of the source, whatever the source is:
it never cuts inside a character, and its offsets are the lengths of the parts before
them (`ofSource?_eq`).  Each search goes along with the one for the part: white space
that is trimmed is counted by what is left, lines are looked at where they begin
(`findFence?_lineStartsFrom`), and a line is over where its ending is (`lineEnd?_append`).
-/

namespace ComponentTsx

set_option autoImplicit false

/-- What is trimmed is as long as what is left is shorter. -/
theorem Text.byteLength_sub_dropWhile (text : Text) (condition : Char → Bool) :
    text.byteLength - byteLength (text.dropWhile condition) =
      byteLength (text.takeWhile condition) := by
  have split := congrArg byteLength (List.takeWhile_append_dropWhile (p := condition) (l := text))
  rw [byteLength_append] at split
  omega

/-! ## Places below the limit -/

namespace Frontmatter

/-- The places in a frontmatter below the limit are told by their offsets. -/
theorem fits {frontmatter : Frontmatter} (small : frontmatter.text.byteLength < UInt32.size) :
    frontmatter.openingFence.Fits ∧ frontmatter.contentSpan.Fits ∧
      ∀ span, frontmatter.closingFence? = some span → span.Fits := by
  have atContent : frontmatter.contentSpan.stop =
      (frontmatter.leading ++ fence ++ frontmatter.content).byteLength := by
    simp [contentSpan, openingFence, Nat.add_assoc]
  rw [text, Text.byteLength_append, ← atContent] at small
  refine ⟨⟨Nat.le_add_right _ _, ?_⟩, ⟨Nat.le_add_right _ _, by omega⟩, ?_⟩
  · have inside : frontmatter.openingFence.stop ≤ frontmatter.contentSpan.stop :=
      Nat.le_add_right _ _
    omega
  · intro span isSpan
    obtain ⟨line, isLine, rfl⟩ := Option.map_eq_some_iff.mp isSpan
    rw [isLine, Option.map_some, Option.getD_some, ClosingLine.text, Text.byteLength_append,
      Text.byteLength_append] at small
    exact ⟨Nat.le_add_right _ _, by rw [Span.stop_ofLength]; omega⟩

end Frontmatter

namespace Component

variable {component : Component}

theorem fits_markupSpan (small : component.text.byteLength < UInt32.size) :
    component.markupSpan.Fits := by
  rw [text, Text.byteLength_append] at small
  exact ⟨Nat.le_add_right _ _, small⟩

theorem fits_of_frontmatter (small : component.text.byteLength < UInt32.size)
    {frontmatter : Frontmatter} (isFrontmatter : component.frontmatter = some frontmatter) :
    frontmatter.openingFence.Fits ∧ frontmatter.contentSpan.Fits ∧
      ∀ span, frontmatter.closingFence? = some span → span.Fits := by
  rw [text, isFrontmatter, Option.map_some, Option.getD_some, Text.byteLength_append] at small
  exact frontmatter.fits (by omega)

end Component

namespace PlacedComponent

open Component

/-- The parts of a component, each with its place in offsets. -/
def ofComponent (component : Component) : PlacedComponent where
  frontmatter := component.frontmatter.map fun frontmatter =>
    { content := frontmatter.content
      span := .ofSpan frontmatter.contentSpan
      openingFence := .ofSpan frontmatter.openingFence
      closingFence := frontmatter.closingFence?.map .ofSpan }
  markup := component.markup
  markupSpan := .ofSpan component.markupSpan
  errors := component.errors.map fun error => ⟨error.kind, .ofSpan error.span⟩

/-- **Below the limit the offsets tell the places.** -/
theorem toSpan_ofComponent {component : Component}
    (small : component.text.byteLength < UInt32.size) :
    (ofComponent component).markupSpan.toSpan = component.markupSpan ∧
      (ofComponent component).frontmatter.map (fun placed =>
        (placed.openingFence.toSpan, placed.span.toSpan, placed.closingFence.map (·.toSpan))) =
      component.frontmatter.map fun frontmatter =>
        (frontmatter.openingFence, frontmatter.contentSpan, frontmatter.closingFence?) := by
  refine ⟨OffsetSpan.toSpan_ofSpan (fits_markupSpan small), ?_⟩
  rw [ofComponent, Option.map_map]
  refine Option.map_congr fun frontmatter isFrontmatter => ?_
  obtain ⟨opening, content, closing⟩ := fits_of_frontmatter small isFrontmatter
  have isClosing : (frontmatter.closingFence?.map OffsetSpan.ofSpan).map (·.toSpan) =
      frontmatter.closingFence? := by
    cases isSpan : frontmatter.closingFence? with
    | none => rfl
    | some span => exact congrArg some (OffsetSpan.toSpan_ofSpan (closing span isSpan))
  simp only [Function.comp_apply, OffsetSpan.toSpan_ofSpan opening,
    OffsetSpan.toSpan_ofSpan content, isClosing]

/-! ## Searches -/

/-- **The closing fence is found where the preamble and the white space before it end.** -/
theorem findFence?_lineStartsFrom (before rest : Text) :
    findFence? (before ++ rest) (lineStartsFrom before.byteLength rest) =
      some ((splitContent rest).2.map fun closing =>
        let lineStart := before.byteLength + (splitContent rest).1.byteLength
        (lineStart, lineStart + closing.1.indent.byteLength)) := by
  induction rest generalizing before with
  | nil => rfl
  | cons char rest ih =>
      have onward := ih (before ++ [char])
      have cut := Text.dropBytes?_append (before ++ [char]) rest
      simp only [List.append_assoc, List.singleton_append, Text.byteLength_append,
        Text.byteLength_cons, Text.byteLength_nil, Nat.add_zero] at onward cut
      have goesOn (same : splitContent (char :: rest) =
          (char :: (splitContent rest).1, (splitContent rest).2)) :
          findFence? (before ++ char :: rest)
              (lineStartsFrom (before.byteLength + char.utf8Size) rest) =
            some ((splitContent (char :: rest)).2.map fun closing =>
              let lineStart := before.byteLength + (splitContent (char :: rest)).1.byteLength
              (lineStart, lineStart + closing.1.indent.byteLength)) := by
        rw [onward, same]
        simp only [Text.byteLength_cons, Nat.add_assoc]
      by_cases isBreak : char = '\n'
      · rw [lineStartsFrom, if_pos isBreak, findFence?, cut]
        by_cases trims : (Text.firstLine rest).trim = fence
        · obtain ⟨line, markup, closes⟩ := exists_closingLine? trims
          have isIndent := (firstLine_of_closingLine? closes).2.1
          have trimmed := Text.byteLength_sub_dropWhile (Text.firstLine rest) isWhiteSpace
          rw [splitContent, if_pos isBreak, closes, ← isIndent] at *
          simp [trims, Text.trimStart, trimmed]
        · rw [← goesOn (by rw [splitContent, if_pos isBreak, closingLine?_eq_none trims])]
          simp [trims]
      · rw [lineStartsFrom, if_neg isBreak]
        exact goesOn (by rw [splitContent, if_neg isBreak])

/-- A line is over where its ending is, whatever comes before it. -/
theorem lineEnd?_append (before rest : Text) :
    lineEnd? (before ++ rest) before.byteLength =
      some (before.byteLength + (splitLineEnding rest).1.byteLength) := by
  let isBlank := fun char : Char => char = ' ' || char = '\t'
  have trimmed := Text.byteLength_sub_dropWhile rest isBlank
  have cut := Text.dropBytes?_append (rest.takeWhile isBlank) (rest.dropWhile isBlank)
  rw [List.takeWhile_append_dropWhile] at cut
  rw [lineEnd?, Text.dropBytes?_append]
  simp only [Option.bind_eq_bind, Option.bind_some, isBlank] at trimmed cut ⊢
  rw [trimmed, cut]
  simp only [Option.bind_some, splitLineEnding, List.isPrefixOf_iff_prefix]
  generalize List.takeWhile _ rest = blanks
  generalize List.dropWhile _ rest = after
  by_cases isReturn : ['\r', '\n'] <+: after
  · obtain ⟨later, rfl⟩ := isReturn
    simp [Nat.add_assoc]
    rfl
  by_cases isFeed : ['\n'] <+: after
  · obtain ⟨later, rfl⟩ := isFeed
    simp [Nat.add_assoc]
    rfl
  · rw [if_neg isReturn, if_neg isFeed]
    split
    · exact absurd (List.prefix_append _ _) isReturn
    · exact absurd (List.prefix_append _ _) isFeed
    · rfl

/-! ## Whole sources -/

/-- The program is past an opening fence. -/
theorem dropBytes?_opening (leading rest : Text)
    (white : ∀ char ∈ leading, isWhiteSpace char = true) :
    let source := leading ++ fence ++ rest
    source.byteLength - source.trimStart.byteLength = leading.byteLength ∧
      source.dropBytes? leading.byteLength = some (fence ++ rest) ∧
      source.dropBytes? (leading.byteLength + fence.byteLength) = some rest := by
  intro source
  refine ⟨?_, ?_, ?_⟩
  · rw [Text.trimStart, Text.byteLength_sub_dropWhile, (takeWhile_append_fence white rest).1]
  · rw [show source = leading ++ (fence ++ rest) from List.append_assoc _ _ _,
      Text.dropBytes?_append]
  · rw [← Text.byteLength_append, Text.dropBytes?_append]

theorem ofSource?_unclosed {leading rest : Text}
    (white : ∀ char ∈ leading, isWhiteSpace char = true)
    (isSplit : splitContent rest = (rest, none)) :
    ofSource? (leading ++ fence ++ rest) =
      some (ofComponent ⟨some ⟨leading, rest, none⟩, []⟩) := by
  obtain ⟨isLeading, atFence, past⟩ := dropBytes?_opening leading rest white
  have opens : fence.isPrefixOf (fence ++ rest) = true :=
    List.isPrefixOf_iff_prefix.mpr (List.prefix_append fence rest)
  have found := findFence?_lineStartsFrom (leading ++ fence) rest
  rw [isSplit, Text.byteLength_append] at found
  have size : (leading ++ fence ++ rest).byteLength =
      leading.byteLength + fence.byteLength + rest.byteLength := by
    rw [Text.byteLength_append, Text.byteLength_append]
  have content := Text.slice?_append (leading ++ fence) rest []
  have markup := Text.slice?_append (leading ++ fence ++ rest) [] []
  rw [List.append_nil, Text.byteLength_append] at content
  rw [List.append_nil, List.append_nil, Text.byteLength_nil, Nat.add_zero, size] at markup
  simp only [ofSource?, isLeading, atFence, past, opens, found, Option.bind_eq_bind,
    Option.bind_some, Option.map_none, if_true]
  simp only [size, content, markup, Option.bind_some]
  have markupSpan : Component.markupSpan ⟨some ⟨leading, rest, none⟩, []⟩ =
      .emptyAt (leading.byteLength + fence.byteLength + rest.byteLength) := by
    simp [Component.markupSpan, Frontmatter.text, Span.ofLength, Span.emptyAt, Nat.add_assoc]
  rw [← OffsetSpan.ofSpan_ofLength, ofComponent, markupSpan]
  rfl

theorem ofSource?_closed {leading content after markup : Text} {line : ClosingLine}
    (white : ∀ char ∈ leading, isWhiteSpace char = true)
    (isSplit : splitContent (content ++ after) = (content, some (line, markup)))
    (closes : closingLine? after = some (line, markup)) :
    ofSource? (leading ++ fence ++ (content ++ after)) =
      some (ofComponent ⟨some ⟨leading, content, some line⟩, markup⟩) := by
  obtain ⟨isLeading, atFence, past⟩ := dropBytes?_opening leading (content ++ after) white
  have opens : fence.isPrefixOf (fence ++ (content ++ after)) = true :=
    List.isPrefixOf_iff_prefix.mpr (List.prefix_append fence _)
  have isAfter : line.indent ++ fence ++ line.ending ++ markup = after :=
    text_append_of_closingLine? closes
  have found := findFence?_lineStartsFrom (leading ++ fence) (content ++ after)
  rw [isSplit, Text.byteLength_append] at found
  let toFence := leading ++ fence ++ content ++ line.indent
  have isSource : leading ++ fence ++ (content ++ after) =
      toFence ++ fence ++ (line.ending ++ markup) := by
    simp [toFence, ← isAfter]
  have fenceEnd : (toFence ++ fence).byteLength = leading.byteLength + fence.byteLength +
      content.byteLength + line.indent.byteLength + fence.byteLength := by
    simp only [toFence, Text.byteLength_append]
  have lineEnd := lineEnd?_append (toFence ++ fence) (line.ending ++ markup)
  rw [splitLineEnding_of_closingLine? closes, ← isSource, fenceEnd] at lineEnd
  have isContent := Text.slice?_append (leading ++ fence) content after
  rw [List.append_assoc, Text.byteLength_append] at isContent
  have size : (leading ++ fence ++ (content ++ after)).byteLength =
      (toFence ++ fence).byteLength + line.ending.byteLength + markup.byteLength := by
    rw [isSource, Text.byteLength_append, Text.byteLength_append line.ending, Nat.add_assoc]
  have isMarkup := Text.slice?_append (toFence ++ fence ++ line.ending) markup []
  rw [List.append_nil, List.append_assoc (toFence ++ fence), ← isSource, Text.byteLength_append,
    ← size, fenceEnd] at isMarkup
  simp only [ofSource?, isLeading, atFence, past, opens, found, Option.bind_eq_bind,
    Option.bind_some, Option.map_some, if_true, lineEnd, isContent, isMarkup]
  have markupSpan : Component.markupSpan ⟨some ⟨leading, content, some line⟩, markup⟩ =
      ⟨(toFence ++ fence).byteLength + line.ending.byteLength,
        (leading ++ fence ++ (content ++ after)).byteLength⟩ := by
    rw [size, fenceEnd]
    simp [Component.markupSpan, Frontmatter.text, ClosingLine.text, Span.ofLength, Nat.add_assoc]
  rw [← OffsetSpan.ofSpan_ofLength, ← OffsetSpan.ofSpan_ofLength, ofComponent, markupSpan, fenceEnd]
  rfl

/--
**The splitter meets the parts.**  Whatever the source is, nothing is cut inside a character, and
the parts and their places are those of the component.
-/
theorem ofSource?_eq (source : Text) : ofSource? source = some (ofComponent (parse source)) := by
  by_cases opens : fence <+: source.trimStart
  · obtain ⟨leading, rest, rfl, white⟩ := exists_leading_append opens
    rcases forall_ne_or_exists_append rest with noFence | ⟨body, after, rfl, trims, noFence⟩
    · rw [parse_eq_unclosed white noFence]
      exact ofSource?_unclosed white (splitContent_eq_of_forall_ne noFence)
    · obtain ⟨line, markup, closes⟩ := exists_closingLine? trims
      have whole : body ++ '\n' :: after = body ++ ['\n'] ++ after := by simp
      rw [parse_eq_closed white noFence closes, whole]
      exact ofSource?_closed white (whole ▸ splitContent_append_break noFence closes) closes
  · have plain := Text.slice?_append [] source []
    have leading := Text.byteLength_sub_dropWhile source isWhiteSpace
    have cut := Text.dropBytes?_append (source.takeWhile isWhiteSpace) source.trimStart
    rw [Text.trimStart, List.takeWhile_append_dropWhile] at cut
    rw [parse_eq_plain opens]
    have noFence : ¬ fence.isPrefixOf (source.dropWhile isWhiteSpace) = true :=
      mt List.isPrefixOf_iff_prefix.mp opens
    rw [List.nil_append, List.append_nil, Text.byteLength_nil, Nat.zero_add] at plain
    simp only [ofSource?, Text.trimStart, leading, cut, Option.bind_eq_bind, Option.bind_some,
      noFence, Bool.false_eq_true, if_false, plain]
    simp [ofComponent, Component.errors, Component.markupSpan, between, OffsetSpan.ofSpan]

end PlacedComponent

end ComponentTsx
