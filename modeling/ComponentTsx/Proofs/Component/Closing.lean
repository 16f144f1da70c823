import ComponentTsx.Proofs.Component.Lossless
import ComponentTsx.Proofs.Text.Lines

/-!
# The line that closes a preamble

A preamble is closed by the first line, after that of the opening fence, that is
a fence between white space.  Either no such line follows, and then the whole
rest is the preamble (`splitContent_eq_of_forall_ne`), or the rest is cut at the
first one (`splitContent_append_break`).  Any rest is of one of these two forms
(`forall_ne_or_exists_append`).
-/

namespace ComponentTsx.Component

set_option autoImplicit false

/-! ## The line itself -/

/-- Spaces and tabs, and at most one line break after them. -/
def IsLineEnding (text : Text) : Prop :=
  ∃ blanks terminator, text = blanks ++ terminator ∧
    (∀ char ∈ blanks, char = ' ' ∨ char = '\t') ∧
    (terminator = [] ∨ terminator = ['\n'] ∨ terminator = ['\r', '\n'])

theorem isLineEnding_splitLineEnding (text : Text) : IsLineEnding (splitLineEnding text).1 := by
  have areBlank : ∀ char ∈ text.takeWhile (fun char => char = ' ' || char = '\t'),
      char = ' ' ∨ char = '\t' := by
    intro char member
    simpa using List.mem_takeWhile_imp member
  simp only [splitLineEnding]
  split
  · exact ⟨_, ['\r', '\n'], rfl, areBlank, .inr (.inr rfl)⟩
  · exact ⟨_, ['\n'], rfl, areBlank, .inr (.inl rfl)⟩
  · exact ⟨_, [], (List.append_nil _).symm, areBlank, .inl rfl⟩

/-- A text begins with a closing line if its first line is a fence between white space. -/
theorem exists_closingLine? {text : Text} (trims : text.firstLine.trim = fence) :
    ∃ line rest, closingLine? text = some (line, rest) := by
  rw [closingLine?, if_pos trims]
  exact ⟨_, _, rfl⟩

/-- The first line of a text that begins with a closing line is the fence between white space. -/
theorem firstLine_of_closingLine? {text rest : Text} {line : ClosingLine}
    (closes : closingLine? text = some (line, rest)) :
    text.firstLine.trim = fence ∧ line.indent = text.firstLine.takeWhile isWhiteSpace ∧
      IsLineEnding line.ending := by
  rw [closingLine?] at closes
  split at closes
  · rename_i trims
    cases closes
    exact ⟨trims, rfl, isLineEnding_splitLineEnding _⟩
  · cases closes

/-- What is before the fence of a closing line is white space of that line. -/
theorem indent_of_closingLine? {text rest : Text} {line : ClosingLine}
    (closes : closingLine? text = some (line, rest)) :
    ∀ char ∈ line.indent, isWhiteSpace char = true ∧ char ≠ '\n' := by
  rw [(firstLine_of_closingLine? closes).2.1]
  intro char member
  exact ⟨List.mem_takeWhile_imp member,
    Text.ne_break_of_mem_firstLine ((List.takeWhile_prefix _).subset member)⟩

/-- What a closing line takes of what stands behind its fence. -/
theorem splitLineEnding_of_closingLine? {text rest : Text} {line : ClosingLine}
    (closes : closingLine? text = some (line, rest)) :
    splitLineEnding (line.ending ++ rest) = (line.ending, rest) := by
  rw [closingLine?] at closes
  split at closes
  · have whole := splitLineEnding_append
      (text.drop ((text.firstLine.takeWhile isWhiteSpace).length + fence.length))
    simp only at closes
    generalize isCut : splitLineEnding _ = cut at closes whole
    cases closes
    rw [whole, isCut]
  · cases closes

theorem closingLine?_eq_none {text : Text} (noFence : text.firstLine.trim ≠ fence) :
    closingLine? text = none := by
  rw [closingLine?, if_neg noFence]

/-- A fence that a line feed follows closes a preamble, and nothing after the line feed is taken. -/
theorem closingLine?_fence (rest : Text) :
    closingLine? (fence ++ '\n' :: rest) = some (⟨[], ['\n']⟩, rest) := by
  have first : Text.firstLine (fence ++ '\n' :: rest) = fence :=
    Text.firstLine_append_break fence rest
  have trims : Text.trim fence = fence := by decide
  have indent : List.takeWhile isWhiteSpace fence = [] := by decide
  rw [closingLine?, first, if_pos trims, indent]
  rfl

/-! ## Finding the line -/

/-- A text without a closing line is a preamble as a whole. -/
theorem splitContent_eq_of_forall_ne {text : Text}
    (noFence : ∀ line ∈ text.laterLines, line.trim ≠ fence) : splitContent text = (text, none) := by
  induction text with
  | nil => rfl
  | cons char rest ih =>
      by_cases isBreak : char = '\n'
      · subst isBreak
        rw [Text.laterLines_cons_break, List.forall_mem_cons] at noFence
        rw [splitContent, if_pos rfl, closingLine?_eq_none noFence.1, ih noFence.2]
      · rw [Text.laterLines_cons_of_ne isBreak] at noFence
        rw [splitContent, if_neg isBreak, ih noFence]

/-- A text without a closing line and a closing line after it are cut apart. -/
theorem splitContent_append_break {body after : Text} {closing : ClosingLine × Text}
    (noFence : ∀ line ∈ body.laterLines, line.trim ≠ fence)
    (closes : closingLine? after = some closing) :
    splitContent (body ++ '\n' :: after) = (body ++ ['\n'], some closing) := by
  induction body with
  | nil => rw [List.nil_append, splitContent, if_pos rfl, closes, List.nil_append]
  | cons char rest ih =>
      by_cases isBreak : char = '\n'
      · subst isBreak
        rw [Text.laterLines_cons_break, List.forall_mem_cons] at noFence
        have goesOn : closingLine? (rest ++ '\n' :: after) = none := by
          apply closingLine?_eq_none
          rw [Text.firstLine_append_break]
          exact noFence.1
        rw [List.cons_append, splitContent, if_pos rfl, goesOn, ih noFence.2, List.cons_append]
      · rw [Text.laterLines_cons_of_ne isBreak] at noFence
        rw [List.cons_append, splitContent, if_neg isBreak, ih noFence, List.cons_append]

/-- The first of the later lines of a text that are a fence between white space, if there is one. -/
theorem forall_ne_or_exists_append (text : Text) :
    (∀ line ∈ text.laterLines, line.trim ≠ fence) ∨
      ∃ body after : Text, text = body ++ '\n' :: after ∧ after.firstLine.trim = fence ∧
        ∀ line ∈ body.laterLines, line.trim ≠ fence := by
  induction text with
  | nil => exact .inl (by simp)
  | cons char rest ih =>
      by_cases isBreak : char = '\n'
      · subst isBreak
        rw [Text.laterLines_cons_break, List.forall_mem_cons]
        by_cases trims : (Text.firstLine rest).trim = fence
        · exact .inr ⟨[], rest, rfl, trims, by simp⟩
        · rcases ih with none | ⟨body, after, rfl, closes, earlier⟩
          · exact .inl ⟨trims, none⟩
          · rw [Text.firstLine_append_break] at trims
            refine .inr ⟨'\n' :: body, after, rfl, closes, ?_⟩
            rw [Text.laterLines_cons_break, List.forall_mem_cons]
            exact ⟨trims, earlier⟩
      · rw [Text.laterLines_cons_of_ne isBreak]
        rcases ih with none | ⟨body, after, rfl, closes, earlier⟩
        · exact .inl none
        · refine .inr ⟨char :: body, after, rfl, closes, ?_⟩
          rw [Text.laterLines_cons_of_ne isBreak]
          exact earlier

/-! ## Whole sources -/

/-- A source that begins with a fence after white space has something after the fence. -/
theorem exists_leading_append {source : Text} (opens : fence <+: source.trimStart) :
    ∃ leading rest, source = leading ++ fence ++ rest ∧
      ∀ char ∈ leading, isWhiteSpace char = true := by
  obtain ⟨rest, isRest⟩ := opens
  refine ⟨source.takeWhile isWhiteSpace, rest, ?_, fun char => List.mem_takeWhile_imp⟩
  rw [List.append_assoc, isRest, Text.trimStart, List.takeWhile_append_dropWhile]

/-- White space and a fence open a preamble. -/
theorem takeWhile_append_fence {leading : Text}
    (white : ∀ char ∈ leading, isWhiteSpace char = true) (rest : Text) :
    (leading ++ fence ++ rest).takeWhile isWhiteSpace = leading ∧
      (leading ++ fence ++ rest).dropWhile isWhiteSpace = fence ++ rest := by
  rw [List.append_assoc, List.takeWhile_append_of_pos white, List.dropWhile_append_of_pos white]
  have visible : isWhiteSpace '-' = false := by decide
  simp [fence, visible]

/-- A source whose preamble no line closes. -/
theorem parse_eq_unclosed {leading rest : Text}
    (white : ∀ char ∈ leading, isWhiteSpace char = true)
    (noFence : ∀ line ∈ rest.laterLines, line.trim ≠ fence) :
    parse (leading ++ fence ++ rest) = ⟨some ⟨leading, rest, none⟩, []⟩ := by
  obtain ⟨before, after⟩ := takeWhile_append_fence white rest
  have opens : fence.isPrefixOf (fence ++ rest) = true :=
    List.isPrefixOf_iff_prefix.mpr (List.prefix_append fence rest)
  rw [parse, before, after, if_pos opens, List.drop_left, splitContent_eq_of_forall_ne noFence]

/-- A source whose preamble a line closes. -/
theorem parse_eq_closed {leading body after markup : Text} {line : ClosingLine}
    (white : ∀ char ∈ leading, isWhiteSpace char = true)
    (noFence : ∀ line ∈ body.laterLines, line.trim ≠ fence)
    (closes : closingLine? after = some (line, markup)) :
    parse (leading ++ fence ++ (body ++ '\n' :: after)) =
      ⟨some ⟨leading, body ++ ['\n'], some line⟩, markup⟩ := by
  obtain ⟨before, rest⟩ := takeWhile_append_fence white (body ++ '\n' :: after)
  have opens : fence.isPrefixOf (fence ++ (body ++ '\n' :: after)) = true :=
    List.isPrefixOf_iff_prefix.mpr (List.prefix_append fence _)
  rw [parse, before, rest, if_pos opens, List.drop_left,
    splitContent_append_break noFence closes]

/-- A source that does not begin with a fence after white space is all markup. -/
theorem parse_eq_plain {source : Text} (noFence : ¬ fence <+: source.trimStart) :
    parse source = ⟨none, source⟩ := by
  rw [parse, if_neg]
  rw [List.isPrefixOf_iff_prefix]
  exact noFence

end ComponentTsx.Component
