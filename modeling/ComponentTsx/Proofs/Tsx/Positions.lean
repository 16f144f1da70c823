import ComponentTsx.Proofs.Assembly.Lookup
import ComponentTsx.Proofs.Tsx.Code

/-!
# The source map of a document is exact, byte by byte

With the markup taken as it is, a document has four parts: the preamble copied,
a text that stands for nothing, the markup copied, and again a text that stands
for nothing (`copiedPieces`).  Its code and its source map are those of the four
parts, so positions can be looked up there.

A byte of the code is a byte of the source, at the offset that the map gives,
exactly when it lies in one of the copies, and the way back leads to it again.
A byte of the source has a place in the code exactly when it lies in the
preamble or in the markup (`sourceMap_exact`).

Offsets are numbers here.  Those of the transform are bounded, and are these numbers
where the source and the code stay below the bound.
-/

namespace ComponentTsx

set_option autoImplicit false

/-! ## Places in the source -/

namespace Component

/-- What precedes the markup in the source. -/
def frontmatterText (component : Component) : Text :=
  (component.frontmatter.map Frontmatter.text).getD []

/-- The preamble's text; none is as good as an empty one. -/
def preambleText (component : Component) : Text := component.preamble?.getD []

/-- The place of the preamble; empty at the beginning without a frontmatter. -/
def preambleSpan (component : Component) : Span :=
  (component.frontmatter.map Frontmatter.contentSpan).getD (.emptyAt 0)

theorem preambleSpan_eq (component : Component) :
    component.preambleSpan =
      .ofLength component.preambleSpan.start component.preambleText.byteLength := by
  obtain ⟨frontmatter, markup⟩ := component
  cases frontmatter <;> rfl

theorem preambleSpan_contains_iff (component : Component) (offset : Nat) :
    component.preambleSpan.contains offset ↔
      ∃ frontmatter, component.frontmatter = some frontmatter ∧
        frontmatter.contentSpan.contains offset := by
  obtain ⟨frontmatter, markup⟩ := component
  cases frontmatter with
  | none => simp [preambleSpan, Span.emptyAt, Span.contains]
  | some frontmatter => simp [preambleSpan]

/-- The source is the preamble between what stands before it and what stands after it. -/
theorem exists_text_eq_preamble (component : Component) :
    ∃ before after, component.text = before ++ component.preambleText ++ after ∧
      before.byteLength = component.preambleSpan.start ∧
      component.preambleSpan.stop ≤ component.markupSpan.start := by
  obtain ⟨frontmatter, markup⟩ := component
  cases frontmatter with
  | none => exact ⟨[], markup, rfl, rfl, Nat.le_refl _⟩
  | some frontmatter =>
      refine ⟨frontmatter.leading ++ fence,
        (frontmatter.closing.map ClosingLine.text).getD [] ++ markup, ?_, ?_, ?_⟩
      · simp [text, Frontmatter.text, preambleText, preamble?]
      · simp [preambleSpan, Frontmatter.contentSpan, Frontmatter.openingFence, Span.ofLength]
      · simp only [preambleSpan, Frontmatter.contentSpan, Frontmatter.openingFence, Span.ofLength,
          markupSpan, Frontmatter.text, Option.map_some, Option.getD_some, Text.byteLength_append]
        omega

/-- The source is the markup after what precedes it. -/
theorem text_eq_markup (component : Component) :
    component.text = component.frontmatterText ++ component.markup ++ [] ∧
      component.frontmatterText.byteLength = component.markupSpan.start := by
  simp [text, frontmatterText, markupSpan, Span.ofLength]

end Component

/-! ## The four parts of a document -/

namespace Tsx

/-- What a document has between the copies of the preamble and the markup. -/
def glueBetween (component : Component) : Text :=
  (if component.frontmatter.isSome then "\n".toList else []) ++
    separator (Props.ofPreamble component.preamble?).declaration ++ openingTag component.markup

/-- What a document has after the copy of the markup. -/
def glueAfter (component : Component) (filename : Option Text) : Text :=
  closingTag component.markup ++
    signatureLine ((filename.map ComponentName.ofPath).getD [])
      (Props.ofPreamble component.preamble?).declaration ++
    ambientBlock (Props.ofPreamble component.preamble?).declaration

/-- The place of the preamble's copy in the code. -/
def preambleCopy (component : Component) : Span := .ofLength 0 component.preambleText.byteLength

/-- The place of the markup's copy in the code. -/
def markupCopy (component : Component) : Span :=
  .ofLength (component.preambleText ++ glueBetween component).byteLength
    component.markup.byteLength

/-- Whether a byte of the code lies in the copy of the preamble or in that of the markup. -/
def IsCopied (component : Component) (generated : Nat) : Prop :=
  (preambleCopy component).contains generated ∨ (markupCopy component).contains generated

/-- The four parts of a document whose markup is taken as it is. -/
def copiedPieces (component : Component) (filename : Option Text) : Assembly :=
  [.copied component.preambleSpan.start component.preambleText,
    .synthetic (glueBetween component),
    .replaced component.markupSpan component.markup,
    .synthetic (glueAfter component filename)]

theorem text_copiedPieces (component : Component) (filename : Option Text) :
    (copiedPieces component filename).text =
      component.preambleText ++ glueBetween component ++ component.markup ++
        glueAfter component filename := by
  simp [copiedPieces, Piece.text]

theorem mappings_copiedPieces (component : Component) (filename : Option Text) :
    (copiedPieces component filename).sourceMap.mappings =
      ((Piece.copied component.preambleSpan.start component.preambleText).mapping? 0).toList ++
        ((Piece.replaced component.markupSpan component.markup).mapping?
          (component.preambleText ++ glueBetween component).byteLength).toList := by
  simp [Assembly.sourceMap, copiedPieces]

/-- The pieces of a markup that is not empty, taken as it is. -/
theorem pieces_passthrough {markup : Text} (nonempty : markup ≠ []) (start : Nat) :
    (Lowering.passthrough markup start).pieces =
      [.synthetic [], .replaced (.ofLength start markup.byteLength) markup, .synthetic []] := by
  have before := Text.splitBytes?_append [] markup
  have whole := Text.splitBytes?_append markup []
  rw [List.nil_append, Text.byteLength_nil] at before
  rw [List.append_nil] at whole
  simp [LoweredMarkup.pieces, Lowering.passthrough, nonempty, LoweredMarkup.inOrder,
    LoweredMarkup.piecesFrom, LoweredMarkup.cut?, Span.ofLength, Span.length, before, whole]

theorem agrees_preamblePieces (component : Component) :
    Assembly.Agrees (preamblePieces component)
      [.copied component.preambleSpan.start component.preambleText,
        .synthetic (if component.frontmatter.isSome then "\n".toList else [])] := by
  obtain ⟨frontmatter, markup⟩ := component
  cases frontmatter with
  | none => exact ⟨rfl, fun _ => rfl⟩
  | some frontmatter => exact ⟨rfl, fun _ => rfl⟩

theorem agrees_markupPieces (markup : Text) (start : Nat) :
    Assembly.Agrees (markupPieces (Lowering.passthrough markup start))
      [.synthetic (openingTag markup), .replaced (.ofLength start markup.byteLength) markup,
        .synthetic (closingTag markup)] := by
  refine ⟨?_, fun offset => ?_⟩
  · simp [text_markupPieces, Lowering.passthrough, Piece.text]
  · by_cases empty : markup = []
    · simp [markupPieces, Lowering.passthrough, empty, Piece.mapping?, Piece.text]
    · have code : (Lowering.passthrough markup start).code = markup := rfl
      rw [markupPieces, pieces_passthrough empty, code, if_neg empty]
      simp only [openingTag, if_neg empty, ← beginsWithBreak_iff, List.cons_append,
        List.nil_append, Assembly.mappingsFrom_synthetic_cons, Assembly.mappingsFrom_replaced_cons,
        Assembly.mappingsFrom_nil, Text.byteLength_nil, Text.byteLength_append, Nat.add_zero,
        Nat.add_assoc]
      rfl

/-- The document reads as its four parts. -/
theorem agrees_copiedPieces (component : Component) (filename : Option Text) :
    Assembly.Agrees (ofComponent component filename .passthrough).assembly
      (copiedPieces component filename) := by
  have optional (condition : Bool) (text : Text) :
      Assembly.Agrees (if condition then [.synthetic text] else [])
        [.synthetic (if condition then text else [])] := by
    cases condition with
    | false => exact ⟨rfl, fun _ => rfl⟩
    | true => exact ⟨rfl, fun _ => rfl⟩
  have parts := ((((agrees_preamblePieces component).append
    (optional (Props.ofPreamble component.preamble?).needsPadding padding)).append
    (agrees_markupPieces component.markup component.markupSpan.start)).append
    (Assembly.Agrees.refl [.synthetic (signature ((filename.map ComponentName.ofPath).getD [])
      (Props.ofPreamble component.preamble?))])).append
    (optional (Props.ofPreamble component.preamble?).hasAmbientDeclaration ambientDeclaration)
  rw [needsPadding_separator, hasAmbientDeclaration_ambientBlock] at parts
  refine Assembly.Agrees.trans parts ⟨?_, fun offset => ?_⟩
  · simp [copiedPieces, glueBetween, glueAfter, Piece.text, signature_eq_signatureLine]
  · simp only [copiedPieces, glueBetween, List.cons_append, List.nil_append,
      Assembly.mappingsFrom_synthetic_cons, Assembly.mappingsFrom_copied_cons,
      Assembly.mappingsFrom_replaced_cons, Assembly.mappingsFrom_nil, Text.byteLength_append,
      Nat.add_assoc]
    rfl

/-! ## Looking up positions in the four parts -/

section Positions

variable (component : Component) (filename : Option Text) {distance : Nat}

theorem sourcePosition?_preamble (inside : distance < component.preambleText.byteLength) :
    (copiedPieces component filename).sourceMap.sourcePosition? distance =
      some (component.preambleSpan.start + distance) := by
  have answer := Assembly.sourcePosition?_append_cons [] [.synthetic (glueBetween component),
    .replaced component.markupSpan component.markup, .synthetic (glueAfter component filename)]
    (.copied component.preambleSpan.start component.preambleText) inside
  simpa [copiedPieces, Piece.sourceAt?, Piece.source?, Piece.text] using answer

theorem sourcePosition?_glueBetween (inside : distance < (glueBetween component).byteLength) :
    (copiedPieces component filename).sourceMap.sourcePosition?
        (component.preambleText.byteLength + distance) = none := by
  have answer := Assembly.sourcePosition?_append_cons
    [.copied component.preambleSpan.start component.preambleText]
    [.replaced component.markupSpan component.markup, .synthetic (glueAfter component filename)]
    (.synthetic (glueBetween component)) inside
  simpa [copiedPieces, Piece.sourceAt?, Piece.source?, Piece.text] using answer

theorem sourcePosition?_markup (inside : distance < component.markup.byteLength) :
    (copiedPieces component filename).sourceMap.sourcePosition?
        ((component.preambleText ++ glueBetween component).byteLength + distance) =
      some (component.markupSpan.start + distance) := by
  have answer := Assembly.sourcePosition?_append_cons
    [.copied component.preambleSpan.start component.preambleText,
      .synthetic (glueBetween component)]
    [.synthetic (glueAfter component filename)]
    (.replaced component.markupSpan component.markup) inside
  simpa [copiedPieces, Piece.sourceAt?, Piece.source?, Piece.text, Component.markupSpan] using
    answer

theorem sourcePosition?_glueAfter
    (inside : distance < (glueAfter component filename).byteLength) :
    (copiedPieces component filename).sourceMap.sourcePosition?
        ((component.preambleText ++ glueBetween component ++ component.markup).byteLength +
          distance) = none := by
  have answer := Assembly.sourcePosition?_append_cons
    [.copied component.preambleSpan.start component.preambleText,
      .synthetic (glueBetween component), .replaced component.markupSpan component.markup] []
    (.synthetic (glueAfter component filename)) inside
  simpa [copiedPieces, Piece.sourceAt?, Piece.source?, Piece.text, Nat.add_assoc] using answer

/-- The copies answer for the source, the preamble first. -/
theorem generatedPosition?_copiedPieces (original : Nat) :
    (copiedPieces component filename).sourceMap.generatedPosition? original =
      if component.preambleSpan.contains original then
        some (original - component.preambleSpan.start)
      else if component.markupSpan.contains original then
        some ((component.preambleText ++ glueBetween component).byteLength +
          (original - component.markupSpan.start))
      else none := by
  have preamble := Assembly.generatedPosition?_toList
    (.copied component.preambleSpan.start component.preambleText) rfl 0 original
  have markup := Assembly.generatedPosition?_toList
    (.replaced component.markupSpan component.markup) rfl
    (component.preambleText ++ glueBetween component).byteLength original
  rw [SourceMap.generatedPosition?, mappings_copiedPieces, List.find?_append, Option.map_or,
    preamble, markup, component.preambleSpan_eq]
  simp only [Span.contains_iff, Piece.text, Nat.zero_add, Span.start_ofLength, Span.stop_ofLength,
    Component.markupSpan]
  split
  · rfl
  · rfl

/-- The bytes in the copy of the preamble are those of the preamble in the source. -/
theorem exactAt_preamble (inside : distance < component.preambleText.byteLength) :
    (copiedPieces component filename).sourceMap.ExactAt component.text
      (copiedPieces component filename).text distance := by
  obtain ⟨before, after, whole, position, _⟩ := component.exists_text_eq_preamble
  obtain ⟨byte, isByte⟩ := Text.exists_byte inside
  have inSource := Text.getElem?_utf8_append before component.preambleText after inside
  have inCode := Text.getElem?_utf8_append [] component.preambleText
    (glueBetween component ++ component.markup ++ glueAfter component filename) inside
  have inSpan : component.preambleSpan.contains (component.preambleSpan.start + distance) := by
    rw [component.preambleSpan_eq, Span.contains_iff, Span.start_ofLength, Span.stop_ofLength]
    omega
  refine ⟨_, byte, sourcePosition?_preamble component filename inside, ?_, ?_, ?_⟩
  · rw [whole, ← position, inSource, isByte]
  · rw [← isByte, ← inCode]
    simp [text_copiedPieces]
  · rw [generatedPosition?_copiedPieces, if_pos inSpan, Nat.add_sub_cancel_left]

/-- The bytes in the copy of the markup are those of the markup in the source. -/
theorem exactAt_markup (inside : distance < component.markup.byteLength) :
    (copiedPieces component filename).sourceMap.ExactAt component.text
      (copiedPieces component filename).text
      ((component.preambleText ++ glueBetween component).byteLength + distance) := by
  obtain ⟨_, _, _, _, ordered⟩ := component.exists_text_eq_preamble
  obtain ⟨whole, position⟩ := component.text_eq_markup
  obtain ⟨byte, isByte⟩ := Text.exists_byte inside
  have inSource := Text.getElem?_utf8_append component.frontmatterText component.markup [] inside
  have inCode := Text.getElem?_utf8_append (component.preambleText ++ glueBetween component)
    component.markup (glueAfter component filename) inside
  have outside : ¬ component.preambleSpan.contains (component.markupSpan.start + distance) := by
    rw [Span.contains_iff]
    omega
  have inSpan : component.markupSpan.contains (component.markupSpan.start + distance) := by
    rw [Span.contains_iff, Component.markupSpan, Span.start_ofLength, Span.stop_ofLength]
    omega
  refine ⟨_, byte, sourcePosition?_markup component filename inside, ?_, ?_, ?_⟩
  · rw [whole, ← position, inSource, isByte]
  · rw [text_copiedPieces, inCode, isByte]
  · rw [generatedPosition?_copiedPieces, if_neg outside, if_pos inSpan, Nat.add_sub_cancel_left]

/-- The bytes of the code that are copied are bytes of the source. -/
theorem exactAt_of_copied {generated : Nat} (copied : IsCopied component generated) :
    (copiedPieces component filename).sourceMap.ExactAt component.text
      (copiedPieces component filename).text generated := by
  simp only [IsCopied, preambleCopy, markupCopy, Span.contains_iff, Span.start_ofLength,
    Span.stop_ofLength] at copied
  rcases copied with inPreamble | inMarkup
  · exact exactAt_preamble component filename (by omega)
  · obtain ⟨distance, rfl⟩ := Nat.exists_eq_add_of_le inMarkup.1
    exact exactAt_markup component filename (by omega)

/-- The other bytes of the code stand for nothing in the source. -/
theorem sourcePosition?_of_not_copied {generated : Nat}
    (inside : generated < (copiedPieces component filename).text.byteLength)
    (glue : ¬ IsCopied component generated) :
    (copiedPieces component filename).sourceMap.sourcePosition? generated = none := by
  simp only [IsCopied, preambleCopy, markupCopy, Span.contains_iff, Span.start_ofLength,
    Span.stop_ofLength, Text.byteLength_append] at glue
  simp only [text_copiedPieces, Text.byteLength_append] at inside
  by_cases between : generated <
      component.preambleText.byteLength + (glueBetween component).byteLength
  · obtain ⟨distance, rfl⟩ : ∃ distance,
        generated = component.preambleText.byteLength + distance :=
      Nat.exists_eq_add_of_le (by omega)
    exact sourcePosition?_glueBetween component filename (by omega)
  · obtain ⟨distance, rfl⟩ : ∃ distance, generated =
        (component.preambleText ++ glueBetween component ++ component.markup).byteLength +
          distance := by
      refine Nat.exists_eq_add_of_le ?_
      simp only [Text.byteLength_append]
      omega
    simp only [Text.byteLength_append] at inside
    exact sourcePosition?_glueAfter component filename (by omega)

/-- The bytes of the source that have a place in the code are those of the two copies. -/
theorem isSome_generatedPosition?_iff (original : Nat) :
    ((copiedPieces component filename).sourceMap.generatedPosition? original).isSome ↔
      component.preambleSpan.contains original ∨ component.markupSpan.contains original := by
  rw [generatedPosition?_copiedPieces]
  split
  · rename_i inPreamble
    exact iff_of_true rfl (.inl inPreamble)
  · rename_i outside
    rw [or_iff_right outside]
    split
    · rename_i inMarkup
      exact iff_of_true rfl inMarkup
    · rename_i nowhere
      exact iff_of_false Bool.false_ne_true nowhere

end Positions

/--
**The source map of a document is exact, byte by byte.**  A byte of the code lies in the copy of the
preamble or in the copy of the markup, and is then a byte of the source, at the offset that the map
gives and that leads back to it; or it lies in neither, and the map gives nothing.  The bytes of the
source that have a place in the code are those of the preamble and those of the markup.
-/
theorem sourceMap_exact (source : Text) (filename : Option Text) :
    let component := Component.parse source
    let tsx := ofComponent component filename .passthrough
    tsx.code = component.preambleText ++ glueBetween component ++ component.markup ++
      glueAfter component filename ∧
    (∀ generated < tsx.code.byteLength,
      (IsCopied component generated → tsx.sourceMap.ExactAt source tsx.code generated) ∧
      (¬ IsCopied component generated → tsx.sourceMap.sourcePosition? generated = none)) ∧
    ∀ original, (tsx.sourceMap.generatedPosition? original).isSome ↔
      (∃ frontmatter, component.frontmatter = some frontmatter ∧
        frontmatter.contentSpan.contains original) ∨
      component.markupSpan.contains original := by
  intro component tsx
  have agree := agrees_copiedPieces component filename
  have code : tsx.code = (copiedPieces component filename).text := agree.text
  have map : tsx.sourceMap = (copiedPieces component filename).sourceMap := agree.sourceMap
  have isSource : component.text = source := Component.text_parse source
  refine ⟨code.trans (text_copiedPieces component filename), ?_, ?_⟩
  · intro generated inside
    rw [map, code, ← isSource]
    rw [code] at inside
    exact ⟨exactAt_of_copied component filename,
      sourcePosition?_of_not_copied component filename inside⟩
  · intro original
    rw [map, ← Component.preambleSpan_contains_iff]
    exact isSome_generatedPosition?_iff component filename original

end Tsx

end ComponentTsx
