import ComponentTsx.Span
import ComponentTsx.Text.WhiteSpace

/-!
# Component sources

A component source may begin with a frontmatter, a preamble between two fences
of three dashes.  White space may precede the opening fence.  The closing fence
is alone on its line, but for white space, and the line is dropped with it: the
preamble ends where that line begins, and the markup begins after it.

A component is kept as the parts its source consists of, so that nothing is lost
and the place of each part is the length of the parts before it.  An opening
fence without a closing one makes the rest of the source a preamble; the markup
is then empty and the component has an error.
-/

namespace ComponentTsx

set_option autoImplicit false

/-- The three dashes that open and close a frontmatter. -/
def fence : Text := "---".toList

/-- The line of a closing fence: what stands around the fence. -/
structure ClosingLine where
  /-- The white space before the fence. -/
  indent : Text
  /-- The blanks after the fence and the line break that follows them. -/
  ending : Text
deriving DecidableEq, Repr

/-- The preamble of a component with the fences around it. -/
structure Frontmatter where
  /-- The white space before the opening fence. -/
  leading : Text
  /-- The preamble: what stands between the opening fence and the line of the closing one. -/
  content : Text
  /-- The line of the closing fence; none when the preamble runs to the end of the source. -/
  closing : Option ClosingLine
deriving DecidableEq, Repr

/-- A component source in parts. -/
structure Component where
  frontmatter : Option Frontmatter
  markup : Text
deriving DecidableEq, Repr

/-- What can be wrong with a component source. -/
inductive ParseErrorKind where
  /-- An opening fence has no closing fence. -/
  | unclosedFrontmatter
deriving DecidableEq, Repr

/-- The error in words. -/
def ParseErrorKind.message : ParseErrorKind → String
  | unclosedFrontmatter => "unclosed frontmatter: expected a closing `---` line"

/-- An error and the part of the source it is about. -/
structure ParseError where
  kind : ParseErrorKind
  span : Span
deriving DecidableEq, Repr

/-! ## Parts and their places -/

namespace ClosingLine

/-- The whole line. -/
def text (line : ClosingLine) : Text := line.indent ++ fence ++ line.ending

end ClosingLine

namespace Frontmatter

/-- The frontmatter as it stands in the source. -/
def text (frontmatter : Frontmatter) : Text :=
  frontmatter.leading ++ fence ++ frontmatter.content ++
    (frontmatter.closing.map ClosingLine.text).getD []

/-- The place of the opening fence. -/
def openingFence (frontmatter : Frontmatter) : Span :=
  .ofLength frontmatter.leading.byteLength fence.byteLength

/-- The place of the preamble. -/
def contentSpan (frontmatter : Frontmatter) : Span :=
  .ofLength frontmatter.openingFence.stop frontmatter.content.byteLength

/-- The place of the closing fence. -/
def closingFence? (frontmatter : Frontmatter) : Option Span :=
  frontmatter.closing.map fun line =>
    .ofLength (frontmatter.contentSpan.stop + line.indent.byteLength) fence.byteLength

end Frontmatter

namespace Component

/-- The source that the parts make up. -/
def text (component : Component) : Text :=
  (component.frontmatter.map Frontmatter.text).getD [] ++ component.markup

/-- The preamble, if there is a frontmatter. -/
def preamble? (component : Component) : Option Text := component.frontmatter.map (·.content)

/-- The place of the markup: the end of the source. -/
def markupSpan (component : Component) : Span :=
  .ofLength (((component.frontmatter.map Frontmatter.text).getD []).byteLength)
    component.markup.byteLength

/-- The errors of the component: its frontmatter may lack a closing fence. -/
def errors (component : Component) : List ParseError :=
  match component.frontmatter with
  | some frontmatter =>
      match frontmatter.closing with
      | some _ => []
      | none => [⟨.unclosedFrontmatter, frontmatter.openingFence⟩]
  | none => []

/-! ## Splitting a source -/

/-- Cuts a text after the spaces and tabs it begins with and a line break that follows them. -/
def splitLineEnding (text : Text) : Text × Text :=
  let isSpaceOrTab := fun char => char = ' ' || char = '\t'
  let blanks := text.takeWhile isSpaceOrTab
  match text.dropWhile isSpaceOrTab with
  | '\r' :: '\n' :: rest => (blanks ++ ['\r', '\n'], rest)
  | '\n' :: rest => (blanks ++ ['\n'], rest)
  | rest => (blanks, rest)

/-- If the first line of a text is a closing fence: that line and what follows it. -/
def closingLine? (text : Text) : Option (ClosingLine × Text) :=
  if text.firstLine.trim = fence then
    let indent := text.firstLine.takeWhile isWhiteSpace
    let (ending, rest) := splitLineEnding (text.drop (indent.length + fence.length))
    some (⟨indent, ending⟩, rest)
  else none

/--
Cuts the text after an opening fence: the preamble, and the closing line with what follows it.  The
line of the opening fence itself holds no closing fence.
-/
def splitContent : Text → Text × Option (ClosingLine × Text)
  | [] => ([], none)
  | char :: rest =>
      match (if char = '\n' then closingLine? rest else none) with
      | some closing => ([char], some closing)
      | none =>
          let (content, closing) := splitContent rest
          (char :: content, closing)

/-- The component of a source. -/
def parse (source : Text) : Component :=
  let leading := source.takeWhile isWhiteSpace
  let afterLeading := source.dropWhile isWhiteSpace
  if fence.isPrefixOf afterLeading then
    match splitContent (afterLeading.drop fence.length) with
    | (content, some (line, markup)) => ⟨some ⟨leading, content, some line⟩, markup⟩
    | (content, none) => ⟨some ⟨leading, content, none⟩, []⟩
  else ⟨none, source⟩

end Component

end ComponentTsx
