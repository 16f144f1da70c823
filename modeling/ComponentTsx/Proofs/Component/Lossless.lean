import ComponentTsx.Component
import Mathlib.Data.List.TakeWhile

/-!
# Splitting a component loses nothing

The parts that `parse` finds make up the source again (`text_parse`), so the
place of each part, which is the length of the parts before it, is its place in
the source.  Each step of the splitter has this property: cutting a line ending
off, reading a closing line, and looking for the closing line.
-/

namespace ComponentTsx

set_option autoImplicit false

namespace Text

/-- What trimming the end takes away is white space. -/
theorem exists_trimEnd_append (text : Text) :
    ∃ trailing, text = text.trimEnd ++ trailing ∧ ∀ char ∈ trailing, isWhiteSpace char = true := by
  refine ⟨(text.reverse.takeWhile isWhiteSpace).reverse, ?_, ?_⟩
  · rw [trimEnd, ← List.reverse_append, List.takeWhile_append_dropWhile, List.reverse_reverse]
  · intro char member
    exact List.mem_takeWhile_imp (List.mem_reverse.mp member)

/-- A text that trims to a word is the word between white space. -/
theorem exists_append_of_trim_eq {text word : Text} (trims : text.trim = word) :
    ∃ trailing, text = text.takeWhile isWhiteSpace ++ word ++ trailing ∧
      ∀ char ∈ trailing, isWhiteSpace char = true := by
  obtain ⟨trailing, split, white⟩ := exists_trimEnd_append text.trimStart
  refine ⟨trailing, ?_, white⟩
  rw [show text.trimStart.trimEnd = word from trims] at split
  rw [List.append_assoc, ← split, trimStart, List.takeWhile_append_dropWhile]

end Text

namespace Component

/-- Cutting a line ending off loses nothing. -/
theorem splitLineEnding_append (text : Text) :
    (splitLineEnding text).1 ++ (splitLineEnding text).2 = text := by
  have parts := List.takeWhile_append_dropWhile (p := fun char => char = ' ' || char = '\t')
    (l := text)
  simp only [splitLineEnding]
  split
  · rename_i rest ending
    rw [ending] at parts
    simpa using parts
  · rename_i rest ending
    rw [ending] at parts
    simpa using parts
  · exact parts

/-- A closing line and what follows it make up the text they were read from. -/
theorem text_append_of_closingLine? {text rest : Text} {line : ClosingLine}
    (closes : closingLine? text = some (line, rest)) : line.text ++ rest = text := by
  unfold closingLine? at closes
  by_cases trims : text.firstLine.trim = fence
  · rw [if_pos trims] at closes
    obtain ⟨trailing, split, _⟩ := Text.exists_append_of_trim_eq trims
    have whole : text = text.firstLine.takeWhile isWhiteSpace ++ fence ++
        (trailing ++ text.dropWhile (· ≠ '\n')) := by
      rw [← List.append_assoc, ← split, Text.firstLine, List.takeWhile_append_dropWhile]
    have remaining : text.drop ((text.firstLine.takeWhile isWhiteSpace).length + fence.length) =
        trailing ++ text.dropWhile (· ≠ '\n') := by
      have dropped := congrArg (List.drop
        (text.firstLine.takeWhile isWhiteSpace ++ fence).length) whole
      rwa [List.drop_left, List.length_append] at dropped
    have ending := splitLineEnding_append (trailing ++ text.dropWhile (· ≠ '\n'))
    simp only [remaining] at closes
    generalize splitLineEnding (trailing ++ text.dropWhile (· ≠ '\n')) = cut at closes ending
    cases closes
    rw [ClosingLine.text, List.append_assoc, ending]
    exact whole.symm
  · rw [if_neg trims] at closes
    cases closes

/-- The preamble, the closing line and what follows them make up the text after an opening fence. -/
theorem splitContent_append (text : Text) :
    (splitContent text).1 ++
      ((splitContent text).2.map fun closing => closing.1.text ++ closing.2).getD [] = text := by
  induction text with
  | nil => rfl
  | cons char rest ih =>
      rw [splitContent]
      split
      · rename_i line closes
        split at closes
        · rw [Option.map_some, Option.getD_some, List.singleton_append,
            text_append_of_closingLine? closes]
        · cases closes
      · exact congrArg (char :: ·) ih

/-- **The parts of a parsed component make up its source.** -/
theorem text_parse (source : Text) : (parse source).text = source := by
  have parts := List.takeWhile_append_dropWhile (p := isWhiteSpace) (l := source)
  simp only [parse]
  split
  · rename_i opens
    obtain ⟨afterFence, whole⟩ := List.isPrefixOf_iff_prefix.mp opens
    have content := splitContent_append afterFence
    rw [← whole] at parts ⊢
    rw [List.drop_left]
    split
    · rename_i content' line markup found
      rw [found] at content
      simp only [text, Frontmatter.text, Option.map_some, Option.getD_some] at content ⊢
      refine Eq.trans ?_ parts
      rw [← content]
      simp
    · rename_i content' found
      rw [found] at content
      simp only [text, Frontmatter.text, Option.map_some, Option.map_none, Option.getD_some,
        Option.getD_none] at content ⊢
      refine Eq.trans ?_ parts
      rw [← content]
      simp
  · simp [text]

end Component

end ComponentTsx
