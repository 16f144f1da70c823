import ComponentTsx.Proofs.Component.Lossless
import ComponentTsx.Tsx

/-!
# The code of a document, part by part

A document is its preamble and a line break, a separator, the lowered markup in
a fragment, the component function and the declaration of the globals.  This
module writes each part down as a text of its own and proves that the code is
the parts in this order (`code_ofComponent_parse`), for every source and every
lowering.

Two facts carry the theorem.  Cutting the lowered code at its mappings, which
may be in any order, overlap, or run past the end, loses nothing and repeats
nothing (`text_pieces`).  And separator, type parameters, parameter type and
globals all follow the first statement of the preamble that binds `Props`
(`FirstBinding`).
-/

namespace ComponentTsx

set_option autoImplicit false

/-! ## The first binding of `Props` -/

/-- What `Props` stands for by the first of some statements that binds it, if one does. -/
inductive FirstBinding : List Declaration → Option PropsDeclaration → Prop where
  | nothing {statements : List Declaration} :
      (∀ statement ∈ statements, statement.props = none) → FirstBinding statements none
  | found {before after : List Declaration} {statement : Declaration}
      {binding : PropsDeclaration} :
      (∀ earlier ∈ before, earlier.props = none) → statement.props = some binding →
        FirstBinding (before ++ statement :: after) (some binding)

/-- The statements of a component's preamble; without a preamble there are none. -/
def Component.statements (component : Component) : List Declaration :=
  (component.preamble?.map Declaration.scan).getD []

theorem firstBinding_ofDeclarations (statements : List Declaration) :
    FirstBinding statements (Props.ofDeclarations statements).declaration := by
  cases found : (Props.ofDeclarations statements).declaration with
  | none => exact .nothing (List.findSome?_eq_none_iff.mp found)
  | some binding =>
      obtain ⟨before, statement, after, rfl, binds, earlier⟩ :=
        List.findSome?_eq_some_iff.mp found
      exact .found earlier binds

/-- The properties of a component are those that its first binding of `Props` declares. -/
theorem firstBinding_ofPreamble (component : Component) :
    FirstBinding component.statements (Props.ofPreamble component.preamble?).declaration := by
  cases preamble : component.preamble? with
  | none => simpa [Component.statements, preamble, Props.ofPreamble] using .nothing (by simp)
  | some text =>
      simpa [Component.statements, preamble, Props.ofPreamble] using
        firstBinding_ofDeclarations (Declaration.scan text)

/-! ## Cutting lowered code -/

namespace LoweredMarkup

/-- The gap, the mapped code and the rest make up the code they are cut from. -/
theorem text_of_cut? {position : Nat} {code gap rest : Text} {mapping : Mapping} {piece : Piece}
    (cuts : cut? position code mapping = some (gap, piece, rest)) :
    gap ++ (piece.text ++ rest) = code := by
  rw [cut?] at cuts
  split at cuts
  · obtain ⟨⟨gap', tail⟩, first, cuts⟩ := Option.bind_eq_some_iff.mp cuts
    obtain ⟨⟨mapped, rest'⟩, second, result⟩ := Option.bind_eq_some_iff.mp cuts
    cases result
    have whole := (Text.append_eq_of_splitBytes? first).1
    have inner := (Text.append_eq_of_splitBytes? second).1
    rw [Piece.text, inner, whole]
  · cases cuts

theorem text_piecesFrom (position : Nat) (code : Text) (mappings : List Mapping) :
    (piecesFrom position code mappings).text = code := by
  induction mappings generalizing position code with
  | nil => simp [piecesFrom, Piece.text]
  | cons mapping others ih =>
      rw [piecesFrom]
      split
      · rename_i gap piece rest cuts
        rw [Assembly.text_cons, Assembly.text_cons, ih]
        exact text_of_cut? cuts
      · exact ih position code

/-- **The pieces of a lowered markup make up its code, whatever its mappings are.** -/
theorem text_pieces (markup : LoweredMarkup) : markup.pieces.text = markup.code :=
  text_piecesFrom 0 markup.code _

end LoweredMarkup

/-! ## The parts of a document -/

namespace Tsx

/-- A preamble and the line break that stands for the line of its closing fence. -/
def closedPreamble : Option Text → Text
  | some preamble => preamble ++ "\n".toList
  | none => []

/-- What separates a local declaration of `Props` from the markup. -/
def separator : Option PropsDeclaration → Text
  | some (.interface _) => "\"\";".toList
  | some (.typeAlias _) => "\"\";".toList
  | _ => []

/-- What precedes the lowered markup: its tag and, unless the markup has one, a line break. -/
def openingTag (code : Text) : Text :=
  if code = [] then []
  else "<Fragment>".toList ++
    if "\n".toList <+: code ∨ "\r\n".toList <+: code then [] else "\n".toList

/-- What follows the lowered markup; without markup there is only a line break. -/
def closingTag (code : Text) : Text :=
  if code = [] then "\n".toList else "\n</Fragment>\n".toList

/-- The type parameters of the binding, if it has any. -/
def clause? (binding : Option PropsDeclaration) : Option GenericClause :=
  binding.bind PropsDeclaration.clause?

/-- The type of the component function's parameter. -/
def propsType (binding : Option PropsDeclaration) : Text :=
  match binding with
  | some _ => "Props".toList ++ ((clause? binding).map GenericClause.usage).getD []
  | none => "Record<string, any>".toList

/-- The line of the component function. -/
def signatureLine (name : Text) (binding : Option PropsDeclaration) : Text :=
  "export default function ".toList ++ name ++ "__AstroComponent_".toList ++
    ((clause? binding).map (·.raw)).getD [] ++ "(_props: ".toList ++ propsType binding ++
    "): any \x7b\x7d\n".toList

/-- The declaration of the globals, if there is a type for it to refer to. -/
def ambientBlock : Option PropsDeclaration → Text
  | some _ => ambientDeclaration
  | none => []

theorem beginsWithBreak_iff (code : Text) :
    beginsWithBreak code = true ↔ "\n".toList <+: code ∨ "\r\n".toList <+: code := by
  unfold beginsWithBreak
  split
  · simp [List.prefix_iff_eq_append]
  · simp
  · rename_i noBreak noReturn
    constructor
    · intro impossible
      cases impossible
    · rintro (⟨rest, rfl⟩ | ⟨rest, rfl⟩)
      · exact (noBreak rest rfl).elim
      · exact (noReturn rest rfl).elim

theorem text_preamblePieces (component : Component) :
    (preamblePieces component).text = closedPreamble component.preamble? := by
  unfold preamblePieces Component.preamble?
  split
  · rename_i frontmatter present
    simp [present, closedPreamble, Piece.text]
  · rename_i absent
    simp [absent, closedPreamble]

theorem text_markupPieces (markup : LoweredMarkup) :
    (markupPieces markup).text =
      openingTag markup.code ++ markup.code ++ closingTag markup.code := by
  unfold markupPieces openingTag closingTag
  by_cases empty : markup.code = []
  · simp [empty, Piece.text]
  · rw [if_neg empty, if_neg empty, if_neg empty]
    simp only [Assembly.text_append, LoweredMarkup.text_pieces, ← beginsWithBreak_iff]
    split
    · simp [Piece.text]
    · simp [Piece.text]

theorem needsPadding_separator (props : Props) :
    (if props.needsPadding then padding else []) = separator props.declaration := by
  obtain ⟨declaration⟩ := props
  rcases declaration with _ | ⟨_⟩ | ⟨_⟩ | ⟨_⟩ <;> rfl

theorem signature_eq_signatureLine (name : Text) (props : Props) :
    signature name props = signatureLine name props.declaration := by
  obtain ⟨declaration⟩ := props
  rcases declaration with _ | ⟨_⟩ | ⟨_⟩ | ⟨_⟩ <;> rfl

theorem hasAmbientDeclaration_ambientBlock (props : Props) :
    (if props.hasAmbientDeclaration then ambientDeclaration else []) =
      ambientBlock props.declaration := by
  obtain ⟨declaration⟩ := props
  cases declaration with
  | none => exact if_neg Bool.false_ne_true
  | some binding => exact if_pos (Eq.refl true)

/-- The code of any component in terms of the parts. -/
theorem code_ofComponent (component : Component) (filename : Option Text) (lower : Lowering) :
    (ofComponent component filename lower).code =
      closedPreamble component.preamble? ++
        separator (Props.ofPreamble component.preamble?).declaration ++
        (openingTag (lower component.markup component.markupSpan.start).code ++
          (lower component.markup component.markupSpan.start).code ++
          closingTag (lower component.markup component.markupSpan.start).code) ++
        signatureLine ((filename.map ComponentName.ofPath).getD [])
          (Props.ofPreamble component.preamble?).declaration ++
        ambientBlock (Props.ofPreamble component.preamble?).declaration := by
  have synthetic (condition : Bool) (text : Text) :
      Assembly.text (if condition then [.synthetic text] else []) =
        if condition then text else [] := by
    cases condition <;> simp [Piece.text]
  simp only [code, ofComponent, Assembly.text_append, text_preamblePieces, text_markupPieces,
    synthetic, needsPadding_separator, hasAmbientDeclaration_ambientBlock,
    ← signature_eq_signatureLine]
  simp [Piece.text]

/--
**The code of a document is its parts in order, for every source and every lowering.**  The lowering
is asked once: the document depends on nothing but its answer for the markup and the offset where
the markup begins in the source.
-/
theorem code_ofComponent_parse (source : Text) (filename : Option Text) (lower : Lowering) :
    let component := Component.parse source
    let start := component.markupSpan.start
    let code := (lower component.markup start).code
    let name := (filename.map ComponentName.ofPath).getD []
    (∃ binding, FirstBinding component.statements binding ∧
      (ofComponent component filename lower).code =
        closedPreamble component.preamble? ++ separator binding ++
          (if code = [] then "\n".toList
            else "<Fragment>".toList ++
              (if "\n".toList <+: code ∨ "\r\n".toList <+: code then [] else "\n".toList) ++
              code ++ "\n</Fragment>\n".toList) ++
          signatureLine name binding ++ ambientBlock binding) ∧
    source.dropBytes? start = some component.markup ∧
    ∀ other : Lowering, other component.markup start = lower component.markup start →
      ofComponent component filename other = ofComponent component filename lower := by
  intro component start code name
  refine ⟨⟨_, firstBinding_ofPreamble component, ?_⟩, ?_, ?_⟩
  · have fragment : openingTag code ++ code ++ closingTag code =
        if code = [] then "\n".toList
        else "<Fragment>".toList ++
          (if "\n".toList <+: code ∨ "\r\n".toList <+: code then [] else "\n".toList) ++
          code ++ "\n</Fragment>\n".toList := by
      unfold openingTag closingTag
      by_cases empty : code = []
      · simp [empty]
      · rw [if_neg empty, if_neg empty, if_neg empty]
    rw [code_ofComponent, ← fragment]
  · have whole := Component.text_parse source
    rw [Component.text] at whole
    conv => lhs; rw [← whole]
    exact Text.dropBytes?_append _ _
  · intro other same
    rw [ofComponent, ofComponent, same]

end Tsx

end ComponentTsx
