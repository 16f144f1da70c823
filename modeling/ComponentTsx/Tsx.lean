import ComponentTsx.Component
import ComponentTsx.ComponentName
import ComponentTsx.Markup
import ComponentTsx.Props

/-!
# TSX documents

The TSX document of a component lets a type checker see the component: first the
preamble as it is, then the markup as an expression, and then a function whose
parameter has the type of the component's properties.  If the preamble declares
that type, a declaration of the component's globals follows.
-/

namespace ComponentTsx

set_option autoImplicit false

/-- A TSX document in pieces, and the properties it was made for. -/
structure Tsx where
  assembly : Assembly
  props : Props
deriving DecidableEq, Repr

namespace Tsx

/-- The code of the document. -/
def code (tsx : Tsx) : Text := tsx.assembly.text

/-- The source map from the code to the component source. -/
def sourceMap (tsx : Tsx) : SourceMap := tsx.assembly.sourceMap

/-! ## The parts of a document -/

/-- A statement of its own, so that the markup does not continue what precedes it. -/
def padding : Text := "\"\";".toList

/-- The declaration of the component's globals. -/
def ambientDeclaration : Text :=
  ("/**\n" ++
    " * Astro global available in all contexts in .astro files\n" ++
    " *\n" ++
    " * [Astro documentation](https://docs.astro.build/reference/api-reference/#astro-global)\n" ++
    "*/\n" ++
    "declare const Astro: Readonly<import('astro').AstroGlobal<Props>>").toList

/-- The component function: its name, its type parameters and the type of its properties. -/
def signature (name : Text) (props : Props) : Text :=
  "export default function ".toList ++ name ++ "__AstroComponent_".toList ++
    props.declarationClause ++ "(_props: ".toList ++ props.parameterType ++
    "): any \x7b\x7d\n".toList

/-- The preamble where it is, and a line break in place of the closing fence. -/
def preamblePieces (component : Component) : Assembly :=
  match component.frontmatter with
  | some frontmatter =>
      [.copied frontmatter.contentSpan.start frontmatter.content, .synthetic ['\n']]
  | none => []

/-- Whether a text begins with a line break. -/
def beginsWithBreak : Text → Bool
  | '\n' :: _ => true
  | '\r' :: '\n' :: _ => true
  | _ => false

/-- The markup as a fragment; empty markup leaves a line break. -/
def markupPieces (markup : LoweredMarkup) : Assembly :=
  if markup.code = [] then [.synthetic ['\n']]
  else
    [.synthetic "<Fragment>".toList,
        .synthetic (if beginsWithBreak markup.code then [] else ['\n'])] ++
      markup.pieces ++ [.synthetic "\n</Fragment>\n".toList]

/-! ## Whole documents -/

/-- The document of a component, given its file name and the lowering of its markup. -/
def ofComponent (component : Component) (filename : Option Text) (lower : Lowering) : Tsx :=
  let props := Props.ofPreamble component.preamble?
  let name := (filename.map ComponentName.ofPath).getD []
  { props
    assembly :=
      preamblePieces component ++
        (if props.needsPadding then [.synthetic padding] else []) ++
        markupPieces (lower component.markup component.markupSpan.start) ++
        [.synthetic (signature name props)] ++
        (if props.hasAmbientDeclaration then [.synthetic ambientDeclaration] else []) }

end Tsx

end ComponentTsx
