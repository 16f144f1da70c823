import ComponentTsx.SourceMap.Builder
import ComponentTsx.Tsx

/-!
# Emitting documents

A document is emitted part by part.  Each part is appended to the code, and the
builder of the source map is told of it, so that code and map are made side by
side.
-/

namespace ComponentTsx

set_option autoImplicit false

/-- The code of a document while it is emitted, and its source map while it is built. -/
structure Emitter where
  output : Text := []
  builder : MapBuilder := {}

namespace Emitter

/-- Emits a text that the source does not have. -/
def generated (emitter : Emitter) (text : Text) : Emitter :=
  ⟨emitter.output ++ text, emitter.builder.addSynthetic text⟩

/-- Emits the text that begins at an offset of the source. -/
def source (emitter : Emitter) (start : Offset) (text : Text) : Emitter :=
  ⟨emitter.output ++ text, emitter.builder.addCopied start text⟩

/-- Emits a piece. -/
def add (emitter : Emitter) (piece : Piece) : Emitter :=
  ⟨emitter.output ++ piece.text, emitter.builder.add piece⟩

/--
Emits the code of a lowered markup from a position on, given the mappings in order: what a mapping
covers as what it stands for, and all else as text that the source does not have.
-/
def loweredFrom (emitter : Emitter) (position : Nat) (code : Text) : List Mapping → Emitter
  | [] => if code = [] then emitter else emitter.generated code
  | mapping :: others =>
      match LoweredMarkup.cut? position code mapping with
      | some (gap, piece, rest) =>
          let reached := if gap = [] then emitter else emitter.generated gap
          (reached.add piece).loweredFrom mapping.generated.stop rest others
      | none => emitter.loweredFrom position code others

/-- Emits a lowered markup. -/
def lowered (emitter : Emitter) (markup : LoweredMarkup) : Emitter :=
  emitter.loweredFrom 0 markup.code (LoweredMarkup.inOrder markup.mappings)

/-- Emits the preamble where it is, and a line break in place of the closing fence. -/
def preamble (emitter : Emitter) : Option Frontmatter → Emitter
  | some frontmatter =>
      (emitter.source (UInt32.ofNat frontmatter.contentSpan.start) frontmatter.content).generated
        ['\n']
  | none => emitter

/-- Emits the markup as a fragment; empty markup leaves a line break. -/
def markup (emitter : Emitter) (markup : LoweredMarkup) : Emitter :=
  if markup.code = [] then emitter.generated ['\n']
  else
    let opened := emitter.generated "<Fragment>".toList
    let inside := if Tsx.beginsWithBreak markup.code then opened else opened.generated ['\n']
    (inside.lowered markup).generated "\n</Fragment>\n".toList

end Emitter

/-- The code of a document with its source map, and the properties it was made for. -/
structure TsxDocument where
  code : Text
  map : OffsetMap
  props : Props
deriving DecidableEq, Repr

/-- The emitter after all parts of a component's document. -/
def Emitter.ofComponent (component : Component) (filename : Option Text) (lower : Lowering) :
    Emitter :=
  let props := Props.ofPreamble component.preamble?
  let name := (filename.map ComponentName.ofPath).getD []
  let start := Emitter.preamble {} component.frontmatter
  let padded := if props.needsPadding then start.generated Tsx.padding else start
  let filled := padded.markup (lower component.markup component.markupSpan.start)
  let signed := filled.generated (Tsx.signature name props)
  if props.hasAmbientDeclaration then signed.generated Tsx.ambientDeclaration else signed

/-- The document of a component, given its file name and the lowering of its markup. -/
def transform (component : Component) (filename : Option Text) (lower : Lowering) : TsxDocument :=
  let emitter := Emitter.ofComponent component filename lower
  { code := emitter.output
    map := emitter.builder.build
    props := Props.ofPreamble component.preamble? }

end ComponentTsx
