import ComponentTsx.Proofs.Component.Closing

/-!
# The parts of a component and their places

A source without an opening fence is all markup (`IsPlain`).  Any other source
is cut into white space, a fence, a preamble that ends with a line feed, the
line of another fence and the markup (`IsClosed`), or into white space, a fence
and a preamble that runs to the end (`IsUnclosed`).  Each span that the
component gives is the place of its part in the source.
-/

namespace ComponentTsx

set_option autoImplicit false

/--
A span is the place of a part of a text, given what precedes the part.  It cuts the part out of the
text, and as texts are cut at character boundaries only, its ends are two of them.
-/
structure Span.IsPlaceOf (span : Span) (text before part : Text) : Prop where
  start_eq : span.start = before.byteLength
  stop_eq : span.stop = (before ++ part).byteLength
  cuts : text.slice? span.start span.stop = some part

/-- The span of the middle of three parts is its place. -/
theorem Span.isPlaceOf_ofLength (before part after : Text) :
    (Span.ofLength before.byteLength part.byteLength).IsPlaceOf (before ++ part ++ after)
      before part where
  start_eq := rfl
  stop_eq := (Text.byteLength_append before part).symm
  cuts := Text.slice?_append before part after

namespace Component

/-! ## Three kinds of components -/

/-- A source without a frontmatter: all of it is markup. -/
structure IsPlain (source : Text) (component : Component) : Prop where
  frontmatter_eq : component.frontmatter = none
  markup_eq : component.markup = source
  markup_place : component.markupSpan.IsPlaceOf source [] source
  errors_eq : component.errors = []

/-- A source whose preamble is closed by a line. -/
structure IsClosed (source : Text) (component : Component) (frontmatter : Frontmatter)
    (line : ClosingLine) : Prop where
  frontmatter_eq : component.frontmatter = some frontmatter
  closing_eq : frontmatter.closing = some line
  source_eq : source = frontmatter.leading ++ fence ++ frontmatter.content ++ line.indent ++ fence ++
    line.ending ++ component.markup
  leading_white : ∀ char ∈ frontmatter.leading, isWhiteSpace char
  content_ends : ∃ body, frontmatter.content = body ++ ['\n']
  indent_white : ∀ char ∈ line.indent, isWhiteSpace char ∧ char ≠ '\n'
  ending_shape : IsLineEnding line.ending
  openingFence_place : frontmatter.openingFence.IsPlaceOf source frontmatter.leading fence
  content_place : frontmatter.contentSpan.IsPlaceOf source (frontmatter.leading ++ fence)
    frontmatter.content
  closingFence_place : ∃ span, frontmatter.closingFence? = some span ∧
    span.IsPlaceOf source (frontmatter.leading ++ fence ++ frontmatter.content ++ line.indent) fence
  markup_place : component.markupSpan.IsPlaceOf source (frontmatter.leading ++ fence ++
    frontmatter.content ++ line.indent ++ fence ++ line.ending) component.markup
  errors_eq : component.errors = []

/-- A source whose preamble no line closes: the one error is about the opening fence. -/
structure IsUnclosed (source : Text) (component : Component) (frontmatter : Frontmatter) :
    Prop where
  frontmatter_eq : component.frontmatter = some frontmatter
  closing_eq : frontmatter.closing = none
  source_eq : source = frontmatter.leading ++ fence ++ frontmatter.content
  leading_white : ∀ char ∈ frontmatter.leading, isWhiteSpace char
  markup_eq : component.markup = []
  openingFence_place : frontmatter.openingFence.IsPlaceOf source frontmatter.leading fence
  content_place : frontmatter.contentSpan.IsPlaceOf source (frontmatter.leading ++ fence)
    frontmatter.content
  closingFence_eq : frontmatter.closingFence? = none
  markup_place : component.markupSpan = .emptyAt source.byteLength
  errors_eq : component.errors = [⟨.unclosedFrontmatter, frontmatter.openingFence⟩]

/-! ## Every source is of one kind -/

theorem isPlain (source : Text) : IsPlain source ⟨none, source⟩ where
  frontmatter_eq := rfl
  markup_eq := rfl
  markup_place := by simpa [markupSpan] using Span.isPlaceOf_ofLength [] source []
  errors_eq := rfl

theorem isUnclosed {leading : Text} (white : ∀ char ∈ leading, isWhiteSpace char = true)
    (content : Text) :
    IsUnclosed (leading ++ fence ++ content) ⟨some ⟨leading, content, none⟩, []⟩
      ⟨leading, content, none⟩ where
  frontmatter_eq := rfl
  closing_eq := rfl
  source_eq := rfl
  leading_white := white
  markup_eq := rfl
  openingFence_place := Span.isPlaceOf_ofLength leading fence content
  content_place := by
    simpa [Frontmatter.contentSpan, Frontmatter.openingFence] using
      Span.isPlaceOf_ofLength (leading ++ fence) content []
  closingFence_eq := rfl
  markup_place := by simp [markupSpan, Frontmatter.text, Span.ofLength, Span.emptyAt]
  errors_eq := rfl

theorem isClosed {leading after markup : Text} {line : ClosingLine} (body : Text)
    (white : ∀ char ∈ leading, isWhiteSpace char = true)
    (closes : closingLine? after = some (line, markup)) :
    IsClosed (leading ++ fence ++ (body ++ '\n' :: after))
      ⟨some ⟨leading, body ++ ['\n'], some line⟩, markup⟩ ⟨leading, body ++ ['\n'], some line⟩
      line := by
  obtain ⟨_, _, ending⟩ := firstLine_of_closingLine? closes
  have rest : after = line.indent ++ fence ++ line.ending ++ markup :=
    (text_append_of_closingLine? closes).symm
  constructor
  · rfl
  · rfl
  · simp [rest]
  · exact white
  · exact ⟨body, rfl⟩
  · exact indent_of_closingLine? closes
  · exact ending
  · exact Span.isPlaceOf_ofLength leading fence (body ++ '\n' :: after)
  · have place := Span.isPlaceOf_ofLength (leading ++ fence) (body ++ ['\n']) after
    simpa [Frontmatter.contentSpan, Frontmatter.openingFence] using place
  · have place := Span.isPlaceOf_ofLength (leading ++ fence ++ (body ++ ['\n']) ++ line.indent) fence
      (line.ending ++ markup)
    refine ⟨_, rfl, ?_⟩
    simpa [Frontmatter.contentSpan, Frontmatter.openingFence, rest, Nat.add_assoc] using place
  · have place := Span.isPlaceOf_ofLength (leading ++ fence ++ (body ++ ['\n']) ++ line.indent ++
      fence ++ line.ending) markup []
    simpa [markupSpan, Frontmatter.text, ClosingLine.text, rest, Nat.add_assoc] using place
  · rfl

/--
**Every source is split without loss, and each reported span is the place of its part.**  Without a
fence after its white space a source is all markup.  With one it has a preamble, which either ends
with a line feed before the line of another fence, or is the rest of the source and an error.
-/
theorem parse_parts (source : Text) :
    let component := parse source
    if fence <+: source.trimStart then
      (∃ frontmatter line, IsClosed source component frontmatter line) ∨
        ∃ frontmatter, IsUnclosed source component frontmatter
    else IsPlain source component := by
  intro component
  split
  · rename_i opens
    obtain ⟨leading, rest, rfl, white⟩ := exists_leading_append opens
    rcases forall_ne_or_exists_append rest with noFence | ⟨body, after, rfl, trims, noFence⟩
    · refine .inr ⟨⟨leading, rest, none⟩, ?_⟩
      rw [show component = _ from parse_eq_unclosed white noFence]
      exact isUnclosed white rest
    · obtain ⟨line, markup, closes⟩ := exists_closingLine? trims
      refine .inl ⟨⟨leading, body ++ ['\n'], some line⟩, line, ?_⟩
      rw [show component = _ from parse_eq_closed white noFence closes]
      exact isClosed _ white closes
  · rename_i plain
    rw [show component = _ from parse_eq_plain plain]
    exact isPlain source

end Component

end ComponentTsx
