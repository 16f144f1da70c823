import ComponentTsx.Component
import ComponentTsx.Offset

/-!
# Splitting a source at offsets

A component source can be split without taking it apart: the offsets are found at
which its frontmatter and its markup begin and end, and the parts are cut out of the
source there.  A text cannot be cut inside a character or past its end, so whatever
cuts is optional.

Offsets are found as numbers and kept in 32 bits.
-/

namespace ComponentTsx

set_option autoImplicit false

/-- The preamble of a component and its places. -/
structure PlacedFrontmatter where
  content : Text
  span : OffsetSpan
  openingFence : OffsetSpan
  closingFence : Option OffsetSpan
deriving DecidableEq, Repr

/-- An error and its place. -/
structure PlacedError where
  kind : ParseErrorKind
  span : OffsetSpan
deriving DecidableEq, Repr

/-- The parts of a component with their places. -/
structure PlacedComponent where
  frontmatter : Option PlacedFrontmatter
  markup : Text
  markupSpan : OffsetSpan
  errors : List PlacedError
deriving DecidableEq, Repr

namespace PlacedComponent

/-- Where the lines begin that follow the line feeds of a text, given where the text begins. -/
def lineStartsFrom (offset : Nat) : Text → List Nat
  | [] => []
  | char :: rest =>
      let next := offset + char.utf8Size
      if char = '\n' then next :: lineStartsFrom next rest else lineStartsFrom next rest

/--
The first of some lines that is a fence between white space: where the line begins and where its
fence does.
-/
def findFence? (source : Text) : List Nat → Option (Option (Nat × Nat))
  | [] => some none
  | lineStart :: later => do
      let line := (← source.dropBytes? lineStart).firstLine
      if line.trim = fence then
        let indent := line.byteLength - line.trimStart.byteLength
        return some (lineStart, lineStart + indent)
      else findFence? source later

/-- The offset after a fence, the blanks that follow it and one line break. -/
def lineEnd? (source : Text) (fenceEnd : Nat) : Option Nat := do
  let rest ← source.dropBytes? fenceEnd
  let trimmed : Text := rest.dropWhile fun char => char = ' ' || char = '\t'
  let blanks := rest.byteLength - trimmed.byteLength
  let afterBlanks ← rest.dropBytes? blanks
  let terminator :=
    if ['\r', '\n'].isPrefixOf afterBlanks then 2
    else if ['\n'].isPrefixOf afterBlanks then 1
    else 0
  return fenceEnd + blanks + terminator

/-- A span between two offsets, as far as these go. -/
def between (start stop : Nat) : OffsetSpan := ⟨UInt32.ofNat start, UInt32.ofNat stop⟩

/-- The parts of a source. -/
def ofSource? (source : Text) : Option PlacedComponent := do
  let leading := source.byteLength - source.trimStart.byteLength
  if fence.isPrefixOf (← source.dropBytes? leading) then
    let openingFence := OffsetSpan.ofLength (UInt32.ofNat leading) fence.byteLength
    let contentStart := leading + fence.byteLength
    let lines := lineStartsFrom contentStart (← source.dropBytes? contentStart)
    match ← findFence? source lines with
    | some (lineStart, fenceStart) =>
        let markupStart ← lineEnd? source (fenceStart + fence.byteLength)
        return {
          frontmatter := some {
            content := ← source.slice? contentStart lineStart
            span := between contentStart lineStart
            openingFence
            closingFence := some (.ofLength (UInt32.ofNat fenceStart) fence.byteLength) }
          markup := ← source.slice? markupStart source.byteLength
          markupSpan := between markupStart source.byteLength
          errors := [] }
    | none =>
        return {
          frontmatter := some {
            content := ← source.slice? contentStart source.byteLength
            span := between contentStart source.byteLength
            openingFence
            closingFence := none }
          markup := ← source.slice? source.byteLength source.byteLength
          markupSpan := between source.byteLength source.byteLength
          errors := [⟨.unclosedFrontmatter, openingFence⟩] }
  else
    return {
      frontmatter := none
      markup := ← source.slice? 0 source.byteLength
      markupSpan := between 0 source.byteLength
      errors := [] }

end PlacedComponent

end ComponentTsx
