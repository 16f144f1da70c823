import ComponentTsx.Proofs.Component.Closing
import ComponentTsx.Proofs.Text.LineEndings

/-!
# Components with carriage returns before their line feeds

A source with carriage returns before its line feeds is split where the source
without them is.  A carriage return is white space, so a line trims to the same
text with one at its end (`map_trim_laterLines_crlf`), and the same line closes
the preamble.  What is dropped with that line ends with the line break, be it of
one character or of two (`splitLineEnding_crlf`).  This needs a source without
carriage returns of its own: behind one more of them a line break is no longer
seen.

So each part of the component is changed as the source is (`parse_crlf`).
-/

namespace ComponentTsx

set_option autoImplicit false

open Text

/-! ## Characters at the ends of a text -/

namespace Text

section While

variable (keeps : Char → Bool) (alike : keeps '\r' = keeps '\n')

include alike

/-- A line break is kept as a whole or not at all. -/
theorem takeWhile_crlf (text : Text) :
    (crlf text).takeWhile keeps = crlf (text.takeWhile keeps) := by
  induction text with
  | nil => rfl
  | cons char rest ih =>
      by_cases isBreak : char = '\n'
      · subst isBreak
        rw [crlf_break, List.takeWhile_cons, List.takeWhile_cons, List.takeWhile_cons, alike, ih]
        split <;> rfl
      · rw [crlf_cons isBreak, List.takeWhile_cons, List.takeWhile_cons, ih]
        split
        · rw [crlf_cons isBreak]
        · rfl

theorem dropWhile_crlf (text : Text) :
    (crlf text).dropWhile keeps = crlf (text.dropWhile keeps) := by
  induction text with
  | nil => rfl
  | cons char rest ih =>
      by_cases isBreak : char = '\n'
      · subst isBreak
        rw [crlf_break, List.dropWhile_cons, List.dropWhile_cons, List.dropWhile_cons, alike, ih]
        split <;> rfl
      · rw [crlf_cons isBreak, List.dropWhile_cons, List.dropWhile_cons, ih]
        split
        · rfl
        · rw [crlf_cons isBreak]

end While

/-- A beginning without line breaks is that of the text without carriage returns. -/
theorem isPrefix_crlf_iff {word text : Text} (noReturn : '\r' ∉ word) (noBreak : '\n' ∉ word) :
    word <+: crlf text ↔ word <+: text := by
  induction word generalizing text with
  | nil => exact iff_of_true List.nil_prefix List.nil_prefix
  | cons first word ih =>
      rw [List.mem_cons, not_or] at noReturn noBreak
      cases text with
      | nil => rfl
      | cons char rest =>
          by_cases isBreak : char = '\n'
          · subst isBreak
            rw [crlf_break, List.cons_prefix_cons, List.cons_prefix_cons]
            exact iff_of_false (fun begins => noReturn.1 begins.1.symm)
              fun begins => noBreak.1 begins.1.symm
          · rw [crlf_cons isBreak, List.cons_prefix_cons, List.cons_prefix_cons,
              ih noReturn.2 noBreak.2]

/-! ## Lines that are trimmed -/

/-- White space at the end of a text is trimmed. -/
theorem trim_append_of_white {trailing : Text} (white : ∀ char ∈ trailing, isWhiteSpace char = true)
    (text : Text) : (text ++ trailing).trim = text.trim := by
  have trimsEnd (rest : Text) : (rest ++ trailing).trimEnd = rest.trimEnd := by
    rw [trimEnd, List.reverse_append, List.dropWhile_append_of_pos, trimEnd]
    exact fun char member => white char (List.mem_reverse.mp member)
  have all : trailing.dropWhile isWhiteSpace = [] := List.dropWhile_eq_nil_iff.mpr white
  rw [trim, trim, trimStart, trimStart, List.dropWhile_append, all]
  cases inside : text.dropWhile isWhiteSpace with
  | nil => rfl
  | cons first rest => exact trimsEnd (first :: rest)

/-- The first line has a carriage return at its end, if it has an end. -/
theorem firstLine_crlf (text : Text) :
    (crlf text).firstLine = text.firstLine ∨ (crlf text).firstLine = text.firstLine ++ ['\r'] := by
  induction text with
  | nil => exact .inl rfl
  | cons char rest ih =>
      by_cases isBreak : char = '\n'
      · subst isBreak
        exact .inr rfl
      · have step (more : Text) : firstLine (char :: more) = char :: firstLine more :=
          List.takeWhile_cons_of_pos (by simpa using isBreak)
        rw [crlf_cons isBreak, step, step]
        exact ih.imp (congrArg (char :: ·)) (congrArg (char :: ·))

theorem trim_firstLine_crlf (text : Text) : (crlf text).firstLine.trim = text.firstLine.trim := by
  rcases firstLine_crlf text with same | ended
  · rw [same]
  · rw [ended, trim_append_of_white (List.forall_mem_singleton.mpr rfl)]

/-- The lines of a text trim to the same texts with carriage returns at their ends. -/
theorem map_trim_laterLines_crlf (text : Text) :
    (crlf text).laterLines.map trim = text.laterLines.map trim := by
  induction text with
  | nil => rfl
  | cons char rest ih =>
      by_cases isBreak : char = '\n'
      · subst isBreak
        rw [crlf_break, laterLines_cons_of_ne (by decide), laterLines_cons_break,
          laterLines_cons_break, List.map_cons, List.map_cons, trim_firstLine_crlf, ih]
      · rw [crlf_cons isBreak, laterLines_cons_of_ne isBreak, laterLines_cons_of_ne isBreak, ih]

/-- A line before another one ends with the carriage return of the line break between them. -/
theorem map_trim_laterLines_crlf_append (text : Text) :
    (laterLines (crlf text ++ ['\r'])).map trim = text.laterLines.map trim := by
  have lines := map_trim_laterLines_crlf (text ++ ['\n'])
  have ends : crlf (text ++ ['\n']) = crlf text ++ ['\r'] ++ '\n' :: [] := by simp
  rw [ends, laterLines_append_break, laterLines_append_break, List.map_append,
    List.map_append] at lines
  exact List.append_inj_left' lines rfl

end Text

/-! ## The closing line -/

/-- The line with a carriage return before its line feed. -/
def ClosingLine.crlf (line : ClosingLine) : ClosingLine :=
  ⟨Text.crlf line.indent, Text.crlf line.ending⟩

namespace Component

/-- A line ending is cut off with the carriage return in it. -/
theorem splitLineEnding_crlf {text : Text} (noReturn : '\r' ∉ text) :
    splitLineEnding (crlf text) =
      (crlf (splitLineEnding text).1, crlf (splitLineEnding text).2) := by
  have rest : (crlf text).dropWhile (fun char => char = ' ' || char = '\t') =
      crlf (text.dropWhile fun char => char = ' ' || char = '\t') :=
    dropWhile_crlf _ rfl text
  have noReturnAfter : '\r' ∉ text.dropWhile (fun char => char = ' ' || char = '\t') :=
    fun member => noReturn ((List.dropWhile_suffix _).subset member)
  simp only [splitLineEnding, takeWhile_crlf (fun char => char = ' ' || char = '\t') rfl,
    rest]
  cases after : text.dropWhile (fun char => char = ' ' || char = '\t') with
  | nil => rfl
  | cons char more =>
      rw [after] at noReturnAfter
      by_cases isBreak : char = '\n'
      · subst isBreak
        simp
      · have isOther : char ≠ '\r' := fun same => noReturnAfter (same ▸ List.mem_cons_self)
        simp [crlf_cons isBreak, isBreak, isOther]

/-- A text that begins with a fence after white space, and whose first line ends there. -/
theorem closingLine?_append {indent rest : Text}
    (white : ∀ char ∈ indent, isWhiteSpace char = true ∧ char ≠ '\n')
    (trims : (firstLine (indent ++ fence ++ rest)).trim = fence) :
    closingLine? (indent ++ fence ++ rest) =
      some (⟨indent, (splitLineEnding rest).1⟩, (splitLineEnding rest).2) := by
  have unbroken : ∀ char ∈ indent ++ fence, decide (char ≠ '\n') = true := by
    intro char member
    rcases List.mem_append.mp member with inIndent | inFence
    · exact decide_eq_true (white char inIndent).2
    · have noBreak : '\n' ∉ fence := by decide
      exact decide_eq_true fun isBreak => noBreak (isBreak ▸ inFence)
  have line : firstLine (indent ++ fence ++ rest) = indent ++ fence ++ rest.firstLine :=
    List.takeWhile_append_of_pos unbroken
  have before := (takeWhile_append_fence (fun char member => (white char member).1)
    rest.firstLine).1
  have after : (indent ++ fence ++ rest).drop (indent.length + fence.length) = rest := by
    rw [← List.length_append, List.drop_left]
  rw [closingLine?, if_pos trims]
  simp only [line, before, after]

/-- A line that closes a preamble closes it with carriage returns too. -/
theorem closingLine?_crlf {text markup : Text} {line : ClosingLine} (noReturn : '\r' ∉ text)
    (closes : closingLine? text = some (line, markup)) :
    closingLine? (crlf text) = some (line.crlf, crlf markup) := by
  have trims := (firstLine_of_closingLine? closes).1
  have white := indent_of_closingLine? closes
  obtain ⟨indent, ending⟩ := line
  have whole : text = indent ++ fence ++ (ending ++ markup) := by
    rw [← text_append_of_closingLine? closes, ClosingLine.text, List.append_assoc]
  generalize ending ++ markup = rest at whole
  have sameIndent : crlf indent = indent := crlf_of_notMem fun member => (white _ member).2 rfl
  have changed : crlf text = indent ++ fence ++ crlf rest := by
    rw [whole, crlf_append, crlf_append, sameIndent, crlf_of_notMem (by decide : '\n' ∉ fence)]
  have noReturnAfter : '\r' ∉ rest := fun member => noReturn (by simp [whole, member])
  have trimsStill : (firstLine (indent ++ fence ++ crlf rest)).trim = fence := by
    rw [← changed, trim_firstLine_crlf, trims]
  rw [whole] at trims closes
  rw [closingLine?_append white trims] at closes
  rw [changed, closingLine?_append white trimsStill, splitLineEnding_crlf noReturnAfter]
  cases closes
  rw [ClosingLine.crlf, sameIndent]

end Component

/-! ## Whole components -/

/-- The frontmatter with carriage returns before its line feeds. -/
def Frontmatter.crlf (frontmatter : Frontmatter) : Frontmatter :=
  ⟨Text.crlf frontmatter.leading, Text.crlf frontmatter.content,
    frontmatter.closing.map ClosingLine.crlf⟩

/-- The component with carriage returns before its line feeds. -/
def Component.crlf (component : Component) : Component :=
  ⟨component.frontmatter.map Frontmatter.crlf, Text.crlf component.markup⟩

namespace Component

theorem forall_white_crlf {leading : Text} (white : ∀ char ∈ leading, isWhiteSpace char = true) :
    ∀ char ∈ Text.crlf leading, isWhiteSpace char = true := by
  have all := takeWhile_crlf isWhiteSpace rfl leading
  rw [List.takeWhile_eq_self_iff.mpr white] at all
  exact List.takeWhile_eq_self_iff.mp all

/-- Lines that trim to the same texts are closing lines alike. -/
theorem forall_ne_of_map_trim_eq {lines others : List Text}
    (same : others.map trim = lines.map trim) (noFence : ∀ line ∈ lines, line.trim ≠ fence) :
    ∀ line ∈ others, line.trim ≠ fence := by
  intro line member trims
  obtain ⟨other, isOther, sameTrim⟩ := List.mem_map.mp (same ▸ List.mem_map_of_mem member)
  exact noFence other isOther (sameTrim.trans trims)

/-- **A source with carriage returns is split into the changed parts of the source without.** -/
theorem parse_crlf {source : Text} (noReturn : '\r' ∉ source) :
    parse (Text.crlf source) = (parse source).crlf := by
  have sameFence : Text.crlf fence = fence := crlf_of_notMem (by decide)
  by_cases opens : fence <+: source.trimStart
  · obtain ⟨leading, rest, rfl, white⟩ := exists_leading_append opens
    have whiteStill := forall_white_crlf white
    rcases forall_ne_or_exists_append rest with noFence | ⟨body, after, rfl, trims, noFence⟩
    · have noFenceStill := forall_ne_of_map_trim_eq (map_trim_laterLines_crlf rest) noFence
      rw [parse_eq_unclosed white noFence, crlf_append, crlf_append, sameFence,
        parse_eq_unclosed whiteStill noFenceStill]
      rfl
    · obtain ⟨line, markup, closes⟩ := exists_closingLine? trims
      have noFenceStill := forall_ne_of_map_trim_eq (map_trim_laterLines_crlf_append body) noFence
      have closesStill := closingLine?_crlf (fun member => noReturn (by simp [member])) closes
      have changed : Text.crlf (leading ++ fence ++ (body ++ '\n' :: after)) =
          Text.crlf leading ++ fence ++
            ((Text.crlf body ++ ['\r']) ++ '\n' :: Text.crlf after) := by
        simp [sameFence]
      rw [parse_eq_closed white noFence closes, changed,
        parse_eq_closed whiteStill noFenceStill closesStill]
      simp [Component.crlf, Frontmatter.crlf]
  · have opensNot : ¬ fence <+: (Text.crlf source).trimStart := by
      rwa [trimStart, dropWhile_crlf isWhiteSpace rfl,
        isPrefix_crlf_iff (by decide) (by decide)]
    rw [parse_eq_plain opens, parse_eq_plain opensNot]
    rfl

/--
**A component with carriage returns before its line feeds has the same parts**, if its source had no
carriage returns before: a frontmatter if it had one, the changed preamble and the changed markup,
a closing fence if it had one, and as many errors.
-/
theorem parse_crlf_parts {source : Text} (noReturn : '\r' ∉ source) :
    let component := parse source
    let changed := parse (Text.crlf source)
    (changed.frontmatter.isSome ↔ component.frontmatter.isSome) ∧
      changed.preamble? = component.preamble?.map Text.crlf ∧
      changed.markup = Text.crlf component.markup ∧
      ((changed.frontmatter.bind Frontmatter.closingFence?).isSome ↔
        (component.frontmatter.bind Frontmatter.closingFence?).isSome) ∧
      changed.errors.length = component.errors.length := by
  intro component changed
  have parts : changed = component.crlf := parse_crlf noReturn
  rw [parts]
  rcases component with ⟨none | ⟨leading, content, none | line⟩, markup⟩ <;>
    exact ⟨.rfl, rfl, rfl, .rfl, rfl⟩

/-- A fence between blanks, a line of other white space and an empty line at the end. -/
theorem parse_crlf_parts_blanks :
    let source : Text := "\n---\nconst a = '---'\n\x0c\n --- \t\n\n<p/>\n".toList
    '\r' ∉ source ∧
      (let component := parse source
      let changed := parse (Text.crlf source)
      (changed.frontmatter.isSome ↔ component.frontmatter.isSome) ∧
        changed.preamble? = component.preamble?.map Text.crlf ∧
        changed.markup = Text.crlf component.markup ∧
        ((changed.frontmatter.bind Frontmatter.closingFence?).isSome ↔
          (component.frontmatter.bind Frontmatter.closingFence?).isSome) ∧
        changed.errors.length = component.errors.length) ∧
      (parse source).markup = "\n<p/>\n".toList ∧
      (parse (Text.crlf source)).markup = "\r\n<p/>\r\n".toList := by
  intro source
  have noReturn : '\r' ∉ source := by decide
  exact ⟨noReturn, parse_crlf_parts noReturn, by decide +kernel, by decide +kernel⟩

end Component

end ComponentTsx
