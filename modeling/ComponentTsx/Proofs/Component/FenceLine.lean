import ComponentTsx.Proofs.Component.LineEndings
import ComponentTsx.Proofs.Component.Places

/-!
# What is left of a closing fence's line

A line closes a preamble if it is a fence between white space of any kind.  What
is dropped behind the fence is less: spaces and tabs, and a line break right
after them.  So the markup begins on the line after that of the fence exactly
when nothing else stands behind the fence, and otherwise it begins on the
fence's own line, with the first character that is neither a space nor a tab
(`markup_begins_iff`).
-/

namespace ComponentTsx.Component

set_option autoImplicit false

/-! ## Cutting off the end of a line -/

/-- Whether a character is dropped behind a fence wherever it stands there. -/
def isSpaceOrTab (char : Char) : Bool := char = ' ' || char = '\t'

/-- What ends a line: nothing more, or a line feed. -/
def EndsLine (after : Text) : Prop := after = [] ∨ ∃ next, after = '\n' :: next

theorem splitLineEnding_eq (text : Text) :
    splitLineEnding text =
      match text.dropWhile isSpaceOrTab with
      | '\r' :: '\n' :: rest => (text.takeWhile isSpaceOrTab ++ ['\r', '\n'], rest)
      | '\n' :: rest => (text.takeWhile isSpaceOrTab ++ ['\n'], rest)
      | rest => (text.takeWhile isSpaceOrTab, rest) := rfl

theorem isSpaceOrTab_iff {char : Char} : isSpaceOrTab char = true ↔ char = ' ' ∨ char = '\t' := by
  simp [isSpaceOrTab]

/-- A text is made of spaces and tabs and of a text that begins with neither. -/
theorem exists_blanks_append (text : Text) :
    ∃ blanks rest : Text, text = blanks ++ rest ∧
      (∀ char ∈ blanks, isSpaceOrTab char = true) ∧
        ∀ first ∈ rest.head?, isSpaceOrTab first = false := by
  refine ⟨text.takeWhile isSpaceOrTab, text.dropWhile isSpaceOrTab,
    List.takeWhile_append_dropWhile.symm, fun char => List.mem_takeWhile_imp, ?_⟩
  intro first isFirst
  have stops := List.head?_dropWhile_not isSpaceOrTab text
  rwa [isFirst] at stops

section Cut

variable {blanks rest : Text} (areBlank : ∀ char ∈ blanks, isSpaceOrTab char = true)
  (stops : ∀ first ∈ rest.head?, isSpaceOrTab first = false)

include areBlank stops

theorem takeWhile_blanks_append : (blanks ++ rest).takeWhile isSpaceOrTab = blanks := by
  rw [List.takeWhile_append_of_pos areBlank]
  cases rest with
  | nil => simp
  | cons first rest => simp [stops first rfl]

theorem dropWhile_blanks_append : (blanks ++ rest).dropWhile isSpaceOrTab = rest := by
  rw [List.dropWhile_append_of_pos areBlank]
  cases rest with
  | nil => simp
  | cons first rest => simp [stops first rfl]

end Cut

/-- Behind a fence, a line ending is dropped as a whole, and nothing of the next line. -/
theorem splitLineEnding_of_isLineEnding {trailing after : Text} (noBreak : '\n' ∉ trailing)
    (ends : EndsLine after) (isEnding : IsLineEnding (trailing ++ after.take 1)) :
    splitLineEnding (trailing ++ after) = (trailing ++ after.take 1, after.tail) := by
  obtain ⟨blanks, terminator, split, blank, kinds⟩ := isEnding
  have areBlank : ∀ char ∈ blanks, isSpaceOrTab char = true :=
    fun char member => isSpaceOrTab_iff.mpr (blank char member)
  have unbroken : '\n' ∉ blanks := fun member => by simpa using blank '\n' member
  rcases ends with rfl | ⟨next, rfl⟩
  · rw [List.take_nil, List.append_nil] at split
    subst split
    -- Nothing follows, so there is no line feed and all of it is blank.
    rcases kinds with rfl | rfl | rfl
    · have stops : ∀ first ∈ ([] : Text).head?, isSpaceOrTab first = false := by simp
      rw [List.append_nil, splitLineEnding_eq, takeWhile_blanks_append areBlank stops,
        dropWhile_blanks_append areBlank stops]
      simp
    · exact absurd (by simp) noBreak
    · exact absurd (by simp) noBreak
  · rcases kinds with rfl | rfl | rfl
    · have inBlanks : '\n' ∈ blanks := by
        rw [List.append_nil] at split
        exact split ▸ by simp
      exact absurd inBlanks unbroken
    · obtain rfl : trailing = blanks := by simpa using split
      have stops : ∀ first ∈ ('\n' :: next).head?, isSpaceOrTab first = false := by
        simp [isSpaceOrTab]
      rw [splitLineEnding_eq, takeWhile_blanks_append areBlank stops,
        dropWhile_blanks_append areBlank stops]
      rfl
    · obtain rfl : trailing = blanks ++ ['\r'] := by
        apply (List.append_left_inj ['\n']).mp
        simpa using split
      have stops : ∀ first ∈ ('\r' :: '\n' :: next).head?, isSpaceOrTab first = false := by
        simp [isSpaceOrTab]
      rw [List.append_assoc, List.singleton_append, splitLineEnding_eq,
        takeWhile_blanks_append areBlank stops, dropWhile_blanks_append areBlank stops]
      simp

/-- Behind a fence, only spaces and tabs are dropped of what is no line ending. -/
theorem splitLineEnding_of_not_isLineEnding {trailing after : Text} (noBreak : '\n' ∉ trailing)
    (ends : EndsLine after) (noEnding : ¬ IsLineEnding (trailing ++ after.take 1)) :
    splitLineEnding (trailing ++ after) =
      (trailing.takeWhile isSpaceOrTab, trailing.dropWhile isSpaceOrTab ++ after) := by
  obtain ⟨blanks, rest, rfl, areBlank, stops⟩ := exists_blanks_append trailing
  have blank : ∀ char ∈ blanks, char = ' ' ∨ char = '\t' :=
    fun char member => isSpaceOrTab_iff.mp (areBlank char member)
  rw [takeWhile_blanks_append areBlank stops, dropWhile_blanks_append areBlank stops]
  cases rest with
  | nil =>
      -- Nothing but spaces and tabs, so a line ending after all.
      refine absurd ⟨blanks, after.take 1, by simp, blank, ?_⟩ noEnding
      rcases ends with rfl | ⟨next, rfl⟩
      · exact .inl rfl
      · exact .inr (.inl rfl)
  | cons first rest =>
      have stopsStill : ∀ char ∈ (first :: (rest ++ after)).head?, isSpaceOrTab char = false :=
        stops
      rw [List.append_assoc, List.cons_append, splitLineEnding_eq,
        takeWhile_blanks_append areBlank stopsStill, dropWhile_blanks_append areBlank stopsStill]
      split
      · rename_i more isReturn
        -- A carriage return before a line feed ends the line, and is a line ending.
        obtain ⟨rfl, breaks⟩ := List.cons.inj isReturn
        cases rest with
        | nil =>
            obtain rfl : after = '\n' :: more := breaks
            exact absurd ⟨blanks, ['\r', '\n'], by simp, blank, .inr (.inr rfl)⟩ noEnding
        | cons second rest =>
            obtain ⟨rfl, -⟩ := List.cons.inj breaks
            exact absurd (by simp) noBreak
      · rename_i more isBreak
        obtain ⟨rfl, -⟩ := List.cons.inj isBreak
        exact absurd (by simp) noBreak
      · rfl

/-- Only white space stands behind the fence of a closing line. -/
theorem white_of_closingLine? {text markup : Text} {line : ClosingLine}
    (closes : closingLine? text = some (line, markup)) :
    ∀ char ∈ Text.firstLine (line.ending ++ markup), isWhiteSpace char = true := by
  obtain ⟨trims, isIndent, -⟩ := firstLine_of_closingLine? closes
  have white := indent_of_closingLine? closes
  obtain ⟨trailing, split, areWhite⟩ := Text.exists_append_of_trim_eq trims
  have first : text.firstLine = line.indent ++ fence ++ (line.ending ++ markup).firstLine := by
    rw [← text_append_of_closingLine? closes, ClosingLine.text, List.append_assoc]
    apply List.takeWhile_append_of_pos
    intro char member
    rcases List.mem_append.mp member with inIndent | inFence
    · exact decide_eq_true (white char inIndent).2
    · have noBreak : '\n' ∉ fence := by decide
      exact decide_eq_true fun isBreak => noBreak (isBreak ▸ inFence)
  rw [← isIndent, first] at split
  rw [List.append_cancel_left split]
  exact areWhite

/-! ## The line of a closing fence -/

/--
The line of a closing fence in a source: what precedes the fence, what stands behind it on its line,
and what follows from the end of the line on.
-/
structure IsFenceLine (source : Text) (frontmatter : Frontmatter)
    (before trailing after : Text) : Prop where
  source_eq : source = before ++ fence ++ (trailing ++ after)
  place : frontmatter.closingFence? = some (.ofLength before.byteLength fence.byteLength)
  white : ∀ char ∈ trailing, isWhiteSpace char = true
  noBreak : '\n' ∉ trailing
  ends : EndsLine after

/-- Whether the markup is what follows the line of a fence, and the line feed of that line. -/
def BeginsBehindLine (source before trailing after : Text) : Prop :=
  (parse source).markup = after.tail ∧
    (parse source).markupSpan.IsPlaceOf source (before ++ fence ++ trailing ++ after.take 1)
      after.tail

/-- A component with a closing line has it from the line that closes its preamble. -/
theorem exists_closingLine?_of_closing {source : Text} {frontmatter : Frontmatter}
    {line : ClosingLine} (present : (parse source).frontmatter = some frontmatter)
    (closed : frontmatter.closing = some line) :
    ∃ after, closingLine? after = some (line, (parse source).markup) ∧
      IsClosed source (parse source) frontmatter line := by
  by_cases opens : fence <+: source.trimStart
  · obtain ⟨leading, rest, rfl, white⟩ := exists_leading_append opens
    rcases forall_ne_or_exists_append rest with noFence | ⟨body, after, rfl, trims, noFence⟩
    · rw [parse_eq_unclosed white noFence] at present
      cases present
      cases closed
    · obtain ⟨found, markup, closes⟩ := exists_closingLine? trims
      rw [parse_eq_closed white noFence closes] at present ⊢
      cases present
      cases closed
      exact ⟨after, closes, isClosed body white closes⟩
  · rw [parse_eq_plain opens] at present
    cases present

/-- The line of a closing fence, found behind the parts of a component. -/
theorem exists_isFenceLine {source after : Text} {component : Component}
    {frontmatter : Frontmatter} {line : ClosingLine}
    (closed : IsClosed source component frontmatter line)
    (closes : closingLine? after = some (line, component.markup)) :
    ∃ trailing rest, line.ending ++ component.markup = trailing ++ rest ∧
      IsFenceLine source frontmatter
        (frontmatter.leading ++ fence ++ frontmatter.content ++ line.indent) trailing rest := by
  obtain ⟨rest, split, ends⟩ := Text.exists_firstLine_append (line.ending ++ component.markup)
  refine ⟨_, rest, split, ?_, ?_, white_of_closingLine? closes, ?_, ?_⟩
  · rw [← split, closed.source_eq]
    simp
  · obtain ⟨span, isSpan, place⟩ := closed.closingFence_place
    rw [isSpan]
    obtain ⟨start, stop⟩ := span
    have starts := place.start_eq
    have stops := place.stop_eq
    simp only [Text.byteLength_append] at starts stops
    simp [Span.ofLength, starts, stops, Nat.add_assoc]
  · exact fun member => Text.ne_break_of_mem_firstLine member rfl
  · exact ends.imp_right List.head?_eq_some_iff.mp

/-- Where the markup begins, from what stands behind the closing fence. -/
theorem markup_of_isFenceLine {source after trailing rest : Text} {frontmatter : Frontmatter}
    {line : ClosingLine} (closed : IsClosed source (parse source) frontmatter line)
    (closes : closingLine? after = some (line, (parse source).markup))
    (behind : line.ending ++ (parse source).markup = trailing ++ rest)
    (isLine : IsFenceLine source frontmatter
      (frontmatter.leading ++ fence ++ frontmatter.content ++ line.indent) trailing rest) :
    (BeginsBehindLine source
        (frontmatter.leading ++ fence ++ frontmatter.content ++ line.indent) trailing rest ↔
      IsLineEnding (trailing ++ rest.take 1)) ∧
    (¬ IsLineEnding (trailing ++ rest.take 1) →
      (parse source).markup = trailing.dropWhile isSpaceOrTab ++ rest) := by
  have cut := splitLineEnding_of_closingLine? closes
  rw [behind] at cut
  refine ⟨⟨?_, ?_⟩, ?_⟩
  · rintro ⟨isNext, -⟩
    have isEnding : line.ending = trailing ++ rest.take 1 := by
      apply (List.append_left_inj rest.tail).mp
      rw [← isNext, behind, List.append_assoc, isNext, ← List.drop_one, List.take_append_drop]
    rw [← isEnding]
    exact closed.ending_shape
  · intro isEnding
    rw [splitLineEnding_of_isLineEnding isLine.noBreak isLine.ends isEnding] at cut
    obtain ⟨ending, isNext⟩ := Prod.mk.inj cut
    have place := closed.markup_place
    rw [← ending, ← isNext] at place
    exact ⟨isNext.symm, by simpa using place⟩
  · intro noEnding
    rw [splitLineEnding_of_not_isLineEnding isLine.noBreak isLine.ends noEnding] at cut
    exact (Prod.mk.inj cut).2.symm

/--
**The markup begins on the line after that of the closing fence exactly when a line ending is all
that stands behind the fence.**  A line ending is made of spaces and tabs, and of a line break after
them, which may have a carriage return.  If anything else stands there, the markup begins with the
first character behind the fence that is neither a space nor a tab.  Nothing of the next line is
dropped either way.
-/
theorem markup_begins_iff {source : Text} {frontmatter : Frontmatter} {line : ClosingLine}
    (present : (parse source).frontmatter = some frontmatter)
    (closed : frontmatter.closing = some line) :
    ∃ before trailing after, IsFenceLine source frontmatter before trailing after ∧
      (BeginsBehindLine source before trailing after ↔
        IsLineEnding (trailing ++ after.take 1)) ∧
      (¬ IsLineEnding (trailing ++ after.take 1) →
        (parse source).markup = trailing.dropWhile isSpaceOrTab ++ after) := by
  obtain ⟨after, closes, isClosed⟩ := exists_closingLine?_of_closing present closed
  obtain ⟨trailing, rest, behind, isLine⟩ := exists_isFenceLine isClosed closes
  exact ⟨_, trailing, rest, isLine, markup_of_isFenceLine isClosed closes behind isLine⟩

/-- Behind tabs and spaces a carriage return and a line feed are dropped too. -/
theorem markup_begins_iff_blanks :
    let source : Text := "---\r\nlet a;\r\n --- \t\r\n <p/>".toList
    let frontmatter : Frontmatter :=
      ⟨[], "\r\nlet a;\r\n".toList, some ⟨" ".toList, " \t\r\n".toList⟩⟩
    (parse source).frontmatter = some frontmatter ∧
      frontmatter.closing = some ⟨" ".toList, " \t\r\n".toList⟩ ∧
      ∃ before trailing after, IsFenceLine source frontmatter before trailing after ∧
        (BeginsBehindLine source before trailing after ↔
          IsLineEnding (trailing ++ after.take 1)) ∧
        (¬ IsLineEnding (trailing ++ after.take 1) →
          (parse source).markup = trailing.dropWhile isSpaceOrTab ++ after) := by
  intro source frontmatter
  have present : (parse source).frontmatter = some frontmatter := by decide +kernel
  exact ⟨present, rfl, markup_begins_iff present rfl⟩

/-- Behind a fence a space that does not break is white space, but neither a space nor a tab. -/
theorem markup_begins_within_line :
    let source : Text := "---\n---\u00a0\n<p/>".toList
    let before : Text := "---\n".toList
    let trailing : Text := "\u00a0".toList
    let after : Text := "\n<p/>".toList
    ∃ frontmatter, (parse source).frontmatter = some frontmatter ∧
      IsFenceLine source frontmatter before trailing after ∧
      (parse source).markup = trailing ++ after ∧
      ¬ BeginsBehindLine source before trailing after := by
  intro source before trailing after
  have isMarkup : (parse source).markup = trailing ++ after := by decide +kernel
  refine ⟨⟨[], "\n".toList, some ⟨[], []⟩⟩, by decide +kernel, ?_, isMarkup, ?_⟩
  · have white : ∀ char ∈ trailing, isWhiteSpace char = true := by
      intro char member
      obtain rfl : char = '\u00a0' := List.mem_singleton.mp member
      decide
    exact ⟨rfl, rfl, white, by decide, .inr ⟨"<p/>".toList, rfl⟩⟩
  · rintro ⟨isNext, -⟩
    rw [isMarkup] at isNext
    exact absurd isNext (by decide)

end ComponentTsx.Component
