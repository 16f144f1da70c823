import ComponentTsx.Proofs.Component.Places

/-!
# Splitting undoes joining

A preamble and a markup that are joined by two fences are found again, as long
as the preamble has no closing line of its own.  In any source the closing fence
stands on the first line that may hold it, and there is an error exactly when
there is no such line (`parse_join_and_find`).
-/

namespace ComponentTsx.Component

set_option autoImplicit false

/-! ## From the parts to the source -/

/-- A text that has a line feed at its end, and no closing line after its first one. -/
structure IsPreamble (text : Text) : Prop where
  ends : ∃ body, text = body ++ ['\n']
  noFence : ∀ line ∈ text.laterLines, line.trim ≠ fence

/-- What precedes the last line feed of a preamble has no closing line either. -/
theorem IsPreamble.forall_ne {body : Text} (preamble : IsPreamble (body ++ ['\n'])) :
    ∀ line ∈ body.laterLines, line.trim ≠ fence := by
  have noFence := preamble.noFence
  rw [Text.laterLines_append_break] at noFence
  exact fun line member => noFence line (List.mem_append_left _ member)

/-- The parts of a joined source are those it was joined from. -/
theorem parse_join {leading preamble : Text} (white : ∀ char ∈ leading, isWhiteSpace char = true)
    (isPreamble : IsPreamble preamble) (markup : Text) :
    parse (leading ++ fence ++ preamble ++ fence ++ ['\n'] ++ markup) =
      ⟨some ⟨leading, preamble, some ⟨[], ['\n']⟩⟩, markup⟩ := by
  obtain ⟨body, rfl⟩ := isPreamble.ends
  have joined : leading ++ fence ++ (body ++ ['\n']) ++ fence ++ ['\n'] ++ markup =
      leading ++ fence ++ (body ++ '\n' :: (fence ++ '\n' :: markup)) := by simp
  rw [joined, parse_eq_closed white isPreamble.forall_ne (closingLine?_fence markup)]

/-! ## From the source to the closing line -/

/--
A span is the fence on the first closing line of a text, given what precedes the text in the source.
The line is a whole one, and of the lines between it and the first one none is a closing line.
-/
def IsFirstClosingFence (source before text : Text) (span : Span) : Prop :=
  ∃ body line after indent trailing : Text, text = body ++ '\n' :: (line ++ after) ∧
    (∀ earlier ∈ body.laterLines, earlier.trim ≠ fence) ∧
    '\n' ∉ line ∧ (after = [] ∨ after.head? = some '\n') ∧ line.trim = fence ∧
    line = indent ++ fence ++ trailing ∧
    span.IsPlaceOf source (before ++ body ++ ['\n'] ++ indent) fence

/-- A closing line that no other precedes holds the first closing fence. -/
theorem isFirstClosingFence {source before body after markup : Text} {line : ClosingLine}
    {span : Span} (noFence : ∀ earlier ∈ body.laterLines, earlier.trim ≠ fence)
    (closes : closingLine? after = some (line, markup))
    (place : span.IsPlaceOf source (before ++ (body ++ ['\n']) ++ line.indent) fence) :
    IsFirstClosingFence source before (body ++ '\n' :: after) span := by
  obtain ⟨trims, indent, _⟩ := firstLine_of_closingLine? closes
  obtain ⟨trailing, isLine, _⟩ := Text.exists_append_of_trim_eq trims
  obtain ⟨rest, whole, next⟩ := Text.exists_firstLine_append after
  refine ⟨body, after.firstLine, rest, line.indent, trailing, by rw [← whole], noFence, ?_, next,
    trims, by rw [indent, ← isLine], by simpa using place⟩
  exact fun member => Text.ne_break_of_mem_firstLine member rfl

/-- The closing fence and the errors of a source that begins with a fence after white space. -/
theorem closing_of_opens {leading : Text} (white : ∀ char ∈ leading, isWhiteSpace char = true)
    (rest : Text) :
    let component := parse (leading ++ fence ++ rest)
    ∃ frontmatter, component.frontmatter = some frontmatter ∧
      (∀ span, frontmatter.closingFence? = some span →
        IsFirstClosingFence (leading ++ fence ++ rest) (leading ++ fence) rest span) ∧
      (frontmatter.closingFence?.isSome ↔ ∃ line ∈ rest.laterLines, line.trim = fence) ∧
      (component.errors ≠ [] ↔ ∀ line ∈ rest.laterLines, line.trim ≠ fence) := by
  intro component
  rcases forall_ne_or_exists_append rest with noFence | ⟨body, after, rfl, trims, noFence⟩
  · have none : ¬ ∃ line ∈ rest.laterLines, line.trim = fence := by
      rintro ⟨line, member, trims⟩
      exact noFence line member trims
    rw [show component = _ from parse_eq_unclosed white noFence]
    refine ⟨_, rfl, ?_, iff_of_false Bool.false_ne_true none,
      iff_of_true (List.cons_ne_nil _ _) noFence⟩
    intro span isSpan
    cases isSpan
  · obtain ⟨line, markup, closes⟩ := exists_closingLine? trims
    have member : after.firstLine ∈ Text.laterLines (body ++ '\n' :: after) := by
      rw [Text.laterLines_append_break]
      exact List.mem_append_right _ (List.mem_cons_self ..)
    have closed := isClosed body white closes
    rw [show component = _ from parse_eq_closed white noFence closes]
    refine ⟨_, rfl, ?_, iff_of_true rfl ⟨_, member, trims⟩,
      iff_of_false (fun error => error rfl) fun none => none _ member trims⟩
    intro span isSpan
    obtain ⟨found, isFound, place⟩ := closed.closingFence_place
    rw [isFound] at isSpan
    cases isSpan
    exact isFirstClosingFence noFence closes place

/--
**Splitting undoes joining, and always takes the first closing line.**  White space, a fence, a
preamble, a fence on a line of its own and a markup are split into that preamble and that markup,
the closing fence right after the preamble.  In a source that begins with a fence after white space,
a closing fence is the one on the first closing line after the line of the opening fence, and there
is an error exactly when there is no closing line.
-/
theorem parse_join_and_find :
    (∀ leading preamble markup : Text, (∀ char ∈ leading, isWhiteSpace char = true) →
      IsPreamble preamble →
      let component := parse (leading ++ fence ++ preamble ++ fence ++ ['\n'] ++ markup)
      component.preamble? = some preamble ∧ component.markup = markup ∧ component.errors = [] ∧
        ∃ frontmatter, component.frontmatter = some frontmatter ∧
          frontmatter.closingFence? =
            some (.ofLength (leading ++ fence ++ preamble).byteLength fence.byteLength)) ∧
    ∀ source rest : Text, source.trimStart = fence ++ rest →
      ∃ leading frontmatter, source = leading ++ fence ++ rest ∧
        (parse source).frontmatter = some frontmatter ∧
        (∀ span, frontmatter.closingFence? = some span →
          IsFirstClosingFence source (leading ++ fence) rest span) ∧
        (frontmatter.closingFence?.isSome ↔ ∃ line ∈ rest.laterLines, line.trim = fence) ∧
        ((parse source).errors ≠ [] ↔ ∀ line ∈ rest.laterLines, line.trim ≠ fence) := by
  constructor
  · intro leading preamble markup white isPreamble component
    rw [show component = _ from parse_join white isPreamble markup]
    refine ⟨rfl, rfl, rfl, _, rfl, ?_⟩
    simp [Frontmatter.closingFence?, Frontmatter.contentSpan, Frontmatter.openingFence,
      Nat.add_assoc]
  · intro source rest opens
    obtain ⟨leading, later, rfl, white⟩ := exists_leading_append ⟨rest, opens.symm⟩
    rw [Text.trimStart, (takeWhile_append_fence white later).2] at opens
    cases List.append_cancel_left opens
    obtain ⟨frontmatter, found⟩ := closing_of_opens white rest
    exact ⟨leading, frontmatter, rfl, found⟩

/-- Dashes that do not make up a line close nothing, even at the beginning of the markup. -/
theorem parse_join_and_find_dashes :
    let leading : Text := "\n ".toList
    let preamble : Text := " ---\nconst rule = '---' // ---\n--\n".toList
    let markup : Text := "---\n<hr/>".toList
    let component := parse (leading ++ fence ++ preamble ++ fence ++ ['\n'] ++ markup)
    (∀ char ∈ leading, isWhiteSpace char = true) ∧ IsPreamble preamble ∧
      (component.preamble? = some preamble ∧ component.markup = markup ∧ component.errors = [] ∧
        ∃ frontmatter, component.frontmatter = some frontmatter ∧
          frontmatter.closingFence? =
            some (.ofLength (leading ++ fence ++ preamble).byteLength fence.byteLength)) ∧
      Text.trimStart "---\n -- -\n".toList = fence ++ "\n -- -\n".toList ∧
      (parse "---\n -- -\n".toList).errors ≠ [] := by
  intro leading preamble markup component
  have white : ∀ char ∈ leading, isWhiteSpace char = true :=
    List.all_eq_true.mp (by decide)
  have isPreamble : IsPreamble preamble :=
    ⟨⟨" ---\nconst rule = '---' // ---\n--".toList, rfl⟩, by decide⟩
  have opens : Text.trimStart "---\n -- -\n".toList = fence ++ "\n -- -\n".toList := by decide
  obtain ⟨_, _, _, _, _, _, error⟩ := parse_join_and_find.2 _ _ opens
  exact ⟨white, isPreamble, parse_join_and_find.1 leading preamble markup white isPreamble, opens,
    error.mpr (by decide)⟩

end ComponentTsx.Component
