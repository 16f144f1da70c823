import ComponentTsx.Proofs.Component.Offsets
import ComponentTsx.Proofs.SourceMap.Building
import ComponentTsx.Proofs.Tsx.Positions
import ComponentTsx.Transform

/-!
# Emitted documents

The emitter appends each part to the code and tells the builder of it, so after
any pieces the code is the text of the pieces and the builder is the one that was
told of them (`Emitter.foldl_add_eq`).  A document is emitted in the pieces that
it is described by (`transform_eq`).

So the code is always the text of the pieces, and below the limit of offsets the
map is their source map: it is then exact, byte by byte (`transform_exact`).  What
stands before the markup makes the code longer than the source, and a source below
the limit can have a document beyond it, whose map is wrong (`transform_wraps`).
-/

namespace ComponentTsx

set_option autoImplicit false

/-! ## Emitting pieces -/

@[simp] theorem MapBuilder.addSynthetic_nil (builder : MapBuilder) :
    builder.addSynthetic [] = builder := by
  simp [addSynthetic]

namespace Emitter

theorem generated_eq_add (emitter : Emitter) (text : Text) :
    emitter.generated text = emitter.add (.synthetic text) := rfl

theorem mappings_generated (emitter : Emitter) (text : Text) :
    (emitter.generated text).builder.mappings = emitter.builder.mappings := rfl

/-- To emit nothing changes nothing. -/
@[simp] theorem generated_nil (emitter : Emitter) : emitter.generated [] = emitter := by
  simp [generated]

/-- **Code and map are made side by side.** -/
theorem foldl_add_eq (emitter : Emitter) (assembly : Assembly) :
    assembly.foldl add emitter =
      ⟨emitter.output ++ assembly.text, assembly.foldl MapBuilder.add emitter.builder⟩ := by
  induction assembly generalizing emitter with
  | nil => simp
  | cons piece rest ih =>
      rw [List.foldl_cons, ih, Assembly.text_cons, ← List.append_assoc]
      rfl

theorem loweredFrom_eq (emitter : Emitter) (position : Nat) (code : Text)
    (mappings : List Mapping) :
    emitter.loweredFrom position code mappings =
      (LoweredMarkup.piecesFrom position code mappings).foldl add emitter := by
  have skip (reached : Emitter) (gap : Text) :
      (if gap = [] then reached else reached.generated gap) = reached.add (.synthetic gap) := by
    split
    · rename_i empty
      rw [empty, ← generated_eq_add, generated_nil]
    · rfl
  induction mappings generalizing emitter position code with
  | nil => exact skip emitter code
  | cons mapping others ih =>
      rw [loweredFrom, LoweredMarkup.piecesFrom]
      cases LoweredMarkup.cut? position code mapping with
      | none => exact ih emitter position code
      | some parts =>
          obtain ⟨gap, piece, rest⟩ := parts
          simp only [skip, ih]
          rfl

theorem lowered_eq (emitter : Emitter) (markup : LoweredMarkup) :
    emitter.lowered markup = markup.pieces.foldl add emitter := loweredFrom_eq emitter 0 _ _

theorem preamble_eq (emitter : Emitter) (component : Component) :
    emitter.preamble component.frontmatter =
      (Tsx.preamblePieces component).foldl add emitter := by
  rw [Tsx.preamblePieces]
  cases component.frontmatter with
  | none => rfl
  | some frontmatter => rfl

theorem markup_eq (emitter : Emitter) (markup : LoweredMarkup) :
    emitter.markup markup = (Tsx.markupPieces markup).foldl add emitter := by
  rw [Emitter.markup, Tsx.markupPieces]
  by_cases empty : markup.code = []
  · rw [if_pos empty, if_pos empty]
    rfl
  · rw [if_neg empty, if_neg empty, List.foldl_append, List.foldl_append]
    simp only [lowered_eq]
    cases Tsx.beginsWithBreak markup.code with
    | false => rfl
    | true =>
        simp only [if_true, List.foldl_cons, List.foldl_nil, ← generated_eq_add, generated_nil]

/-- A component's document is emitted in the pieces that it is described by. -/
theorem ofComponent_eq (component : Component) (filename : Option Text) (lower : Lowering) :
    ofComponent component filename lower =
      (Tsx.ofComponent component filename lower).assembly.foldl add {} := by
  have optional (emitter : Emitter) (condition : Bool) (text : Text) :
      (if condition then emitter.generated text else emitter) =
        (if condition then [Piece.synthetic text] else []).foldl add emitter := by
    cases condition with
    | false => rfl
    | true => rfl
  simp only [ofComponent, Tsx.ofComponent, List.foldl_append, preamble_eq, markup_eq, optional]
  rfl

end Emitter

/-- **An emitted document is what its pieces describe:** their text, and what a builder makes of
them. -/
theorem transform_eq (component : Component) (filename : Option Text) (lower : Lowering) :
    transform component filename lower =
      let tsx := Tsx.ofComponent component filename lower
      ⟨tsx.code, (MapBuilder.ofAssembly tsx.assembly).build, tsx.props⟩ := by
  have emitted := Emitter.ofComponent_eq component filename lower
  rw [Emitter.foldl_add_eq] at emitted
  rw [transform, emitted]
  rfl

/-! ## Documents below the limit -/

namespace Tsx

variable {component : Component} {filename : Option Text}

/-- The spans of a source below the limit are told by their offsets. -/
theorem sourcesFit_copiedPieces (small : component.text.byteLength < UInt32.size) :
    (copiedPieces component filename).SourcesFit := by
  obtain ⟨before, after, whole, position, _⟩ := component.exists_text_eq_preamble
  have preambleInside := congrArg Text.byteLength whole
  simp only [Text.byteLength_append] at preambleInside
  intro piece isPiece source isSource
  simp only [copiedPieces, List.mem_cons, List.not_mem_nil, or_false] at isPiece
  rcases isPiece with rfl | rfl | rfl | rfl
  · cases isSource
    exact ⟨Nat.le_add_right _ _, by rw [Span.stop_ofLength]; omega⟩
  · cases isSource
  · cases isSource
    exact component.fits_markupSpan small
  · cases isSource

end Tsx

/-- A byte of the code is the byte of the source that the map leads to and back from. -/
def OffsetMap.ExactAt (map : OffsetMap) (source code : Text) (generated : Offset) : Prop :=
  ∃ original byte, map.sourcePosition? generated = some original ∧
    source.utf8[original.toNat]? = some byte ∧ code.utf8[generated.toNat]? = some byte ∧
    map.generatedPosition? original = some generated

/-- A map is exact in offsets where it is exact in numbers. -/
theorem OffsetMap.exactAt_ofSourceMap {map : SourceMap}
    (fits : ∀ mapping ∈ map.mappings, mapping.Fits) {source code : Text} {generated : Offset}
    (exact : map.ExactAt source code generated.toNat) :
    (ofSourceMap map).ExactAt source code generated := by
  obtain ⟨position, byte, leads, inSource, inCode, back⟩ := exact
  have there := sourcePosition?_ofSourceMap fits generated
  rw [leads] at there
  obtain ⟨original, isOriginal, rfl⟩ := Option.map_eq_some_iff.mp there
  have again := generatedPosition?_ofSourceMap fits original
  rw [back] at again
  obtain ⟨same, isSame, sameNumber⟩ := Option.map_eq_some_iff.mp again
  rw [UInt32.toNat_inj.mp sameNumber] at isSame
  exact ⟨original, byte, isOriginal, inSource, inCode, isSame⟩

/-- Below the limit the map of a document is its source map in offsets, and loses nothing. -/
theorem map_transform {source : Text} {filename : Option Text}
    (smallSource : source.byteLength < UInt32.size)
    (smallCode : (transform (Component.parse source) filename .passthrough).code.byteLength <
      UInt32.size) :
    let tsx := Tsx.ofComponent (Component.parse source) filename .passthrough
    (transform (Component.parse source) filename .passthrough).map = .ofSourceMap tsx.sourceMap ∧
      ∀ mapping ∈ tsx.sourceMap.mappings, mapping.Fits := by
  intro tsx
  have isDocument := transform_eq (Component.parse source) filename .passthrough
  have small : tsx.assembly.text.byteLength < UInt32.size := by
    have isText : tsx.assembly.text =
        (transform (Component.parse source) filename .passthrough).code :=
      (congrArg TsxDocument.code isDocument).symm
    rwa [isText]
  refine ⟨(congrArg TsxDocument.map isDocument).trans (MapBuilder.build_ofAssembly small), ?_⟩
  have agree := Tsx.agrees_copiedPieces (Component.parse source) filename
  have sameMap : tsx.sourceMap =
      (Tsx.copiedPieces (Component.parse source) filename).sourceMap := agree.sourceMap
  rw [sameMap]
  refine Assembly.fits_of_mem (agree.text ▸ small) (Tsx.sourcesFit_copiedPieces ?_)
  rwa [Component.text_parse]

open Tsx in
/--
**The source map of a document is exact, byte by byte**, as long as neither the source nor the code
reaches the limit of offsets.  A byte of the code lies in the copy of the preamble or in the copy of
the markup, and is then a byte of the source, at the offset that the map gives and that leads back
to it; or it lies in neither, and the map gives nothing.  The bytes of the source that have a place
in the code are those of the preamble and those of the markup.
-/
theorem transform_exact (source : Text) (filename : Option Text)
    (smallSource : source.byteLength < UInt32.size)
    (smallCode : (transform (Component.parse source) filename .passthrough).code.byteLength <
      UInt32.size) :
    let component := Component.parse source
    let document := transform component filename .passthrough
    document.code = component.preambleText ++ glueBetween component ++ component.markup ++
      glueAfter component filename ∧
    (∀ generated : Offset, generated.toNat < document.code.byteLength →
      (IsCopied component generated.toNat →
        document.map.ExactAt source document.code generated) ∧
      (¬ IsCopied component generated.toNat →
        document.map.sourcePosition? generated = none)) ∧
    ∀ original : Offset, (document.map.generatedPosition? original).isSome ↔
      (∃ frontmatter, component.frontmatter = some frontmatter ∧
        frontmatter.contentSpan.contains original.toNat) ∨
      component.markupSpan.contains original.toNat := by
  intro component document
  obtain ⟨code, positions, places⟩ := sourceMap_exact source filename
  obtain ⟨isMap, fits⟩ := map_transform smallSource smallCode
  have isCode : document.code = (ofComponent component filename .passthrough).code :=
    congrArg TsxDocument.code (transform_eq component filename .passthrough)
  replace isMap : document.map = _ := isMap
  refine ⟨isCode.trans code, fun generated inside => ?_, fun original => ?_⟩
  · obtain ⟨ofCopied, ofGlue⟩ := positions generated.toNat (isCode ▸ inside)
    rw [isMap, isCode]
    refine ⟨fun copied => OffsetMap.exactAt_ofSourceMap fits (ofCopied copied), fun glue => ?_⟩
    have same := OffsetMap.sourcePosition?_ofSourceMap fits generated
    rw [show _ = none from ofGlue glue] at same
    exact Option.map_eq_none_iff.mp same
  · have same := OffsetMap.generatedPosition?_ofSourceMap fits original
    rw [isMap, ← Option.isSome_map (f := UInt32.toNat), same]
    exact places original.toNat

/-- A preamble between fences of which one has a blank after it, and a letter of two bytes. -/
theorem transform_exact_paragraph :
    let source : Text := " ---\nlet a\n--- \n<p>é</p>".toList
    let document := transform (Component.parse source) none .passthrough
    (source.byteLength < UInt32.size ∧ document.code.byteLength < UInt32.size) ∧
      document.map.ExactAt source document.code 23 ∧ document.map.sourcePosition? 7 = none ∧
      document.map.generatedPosition? 15 = none ∧ (document.map.generatedPosition? 16).isSome := by
  intro source document
  have smallSource : source.byteLength < UInt32.size := by decide +kernel
  have smallCode : document.code.byteLength < UInt32.size := by decide +kernel
  have inside (generated : Offset) (isBefore : generated.toNat < 28) :
      generated.toNat < document.code.byteLength := by
    have long : 28 ≤ document.code.byteLength := by decide +kernel
    omega
  obtain ⟨_, positions, places⟩ := transform_exact source none smallSource smallCode
  refine ⟨⟨smallSource, smallCode⟩, (positions 23 (inside 23 (by decide))).1 ?_,
    (positions 7 (inside 7 (by decide))).2 ?_, ?_, (places 16).mpr (.inr ?_)⟩
  · exact .inr (by decide +kernel)
  · exact not_or.mpr ⟨by decide +kernel, by decide +kernel⟩
  · have outside : ∀ frontmatter ∈ (Component.parse source).frontmatter,
        ¬ frontmatter.contentSpan.contains (UInt32.toNat 15) := by decide +kernel
    refine Option.not_isSome_iff_eq_none.mp (mt (places 15).mp ?_)
    rintro (⟨frontmatter, isFrontmatter, inside⟩ | inside)
    · exact outside frontmatter isFrontmatter inside
    · exact absurd inside (by decide +kernel)
  · decide +kernel

/-! ## Documents beyond the limit -/

/-- Without a preamble the one mapping is that of the markup, which begins after its tag. -/
theorem map_transform_of_markup {markup : Text} (nonempty : markup ≠ [])
    (noBreak : Tsx.beginsWithBreak markup = false) (small : markup.byteLength < UInt32.size)
    (filename : Option Text) :
    (transform ⟨none, markup⟩ filename .passthrough).map =
      ⟨[⟨.ofLength 11 markup.byteLength, .ofLength 0 markup.byteLength⟩]⟩ := by
  have isCode : (Lowering.passthrough markup 0).code = markup := rfl
  have opening : ((Emitter.generated {} "<Fragment>".toList).generated ['\n']).builder =
      ⟨[], 11⟩ := by decide
  have inFragment : (Emitter.markup {} (Lowering.passthrough markup 0)).builder.mappings =
      [⟨.ofLength 11 markup.byteLength, .ofLength 0 markup.byteLength⟩] := by
    have notEmpty : ¬ (OffsetSpan.ofLength 11 markup.byteLength).isEmpty :=
      mt (MapBuilder.isEmpty_ofLength_iff 11 small).mp nonempty
    have source : OffsetSpan.ofSpan (.ofLength 0 markup.byteLength) =
        .ofLength 0 markup.byteLength := OffsetSpan.ofSpan_ofLength 0 _
    rw [Emitter.markup, if_neg (isCode ▸ nonempty), isCode, noBreak]
    simp only [Emitter.lowered_eq, Tsx.pieces_passthrough nonempty, Bool.false_eq_true, if_false,
      List.foldl_cons, List.foldl_nil, Emitter.mappings_generated, Emitter.add, opening,
      MapBuilder.add, MapBuilder.addSynthetic_nil, MapBuilder.addReplaced, notEmpty, source,
      List.nil_append]
  have undeclared : Props.ofPreamble (Component.preamble? ⟨none, markup⟩) = ⟨none⟩ := rfl
  have mappings : (Emitter.ofComponent ⟨none, markup⟩ filename .passthrough).builder.mappings =
      [⟨.ofLength 11 markup.byteLength, .ofLength 0 markup.byteLength⟩] := by
    have noPadding : Props.needsPadding ⟨none⟩ = false := rfl
    have noAmbient : Props.hasAmbientDeclaration ⟨none⟩ = false := rfl
    have noPreamble : Emitter.preamble {} none = {} := rfl
    simp only [Emitter.ofComponent, undeclared, noPadding, noAmbient, noPreamble, Bool.false_eq_true,
      if_false, Emitter.mappings_generated]
    exact inFragment
  rw [transform, MapBuilder.build, mappings, List.mergeSort_singleton]

/-- Without a preamble the copy of a markup begins after its tag. -/
theorem markupCopy_of_markup {markup : Text} (nonempty : markup ≠ [])
    (noBreak : Tsx.beginsWithBreak markup = false) :
    Tsx.markupCopy ⟨none, markup⟩ = .ofLength 11 markup.byteLength := by
  have isTag : Tsx.openingTag markup = "<Fragment>\n".toList := by
    have noBreak : ¬ ("\n".toList <+: markup ∨ "\r\n".toList <+: markup) := by
      rw [← Tsx.beginsWithBreak_iff, noBreak]
      exact Bool.false_ne_true
    rw [Tsx.openingTag, if_neg nonempty, if_neg noBreak]
    rfl
  have isGlue : Tsx.glueBetween ⟨none, markup⟩ = Tsx.openingTag markup := rfl
  rw [Tsx.markupCopy, isGlue, isTag]
  rfl

/--
A mapping that stops beyond the limit covers nothing, not even where it begins: a markup below the
limit can be so long that its copy is lost.
-/
theorem sourcePosition?_transform_of_large {markup : Text}
    (noBreak : Tsx.beginsWithBreak markup = false) (small : markup.byteLength < UInt32.size)
    (large : UInt32.size ≤ 11 + markup.byteLength) (filename : Option Text) :
    let document := transform ⟨none, markup⟩ filename .passthrough
    Tsx.IsCopied ⟨none, markup⟩ 11 ∧ 11 < document.code.byteLength ∧
      document.map.sourcePosition? 11 = none := by
  intro document
  have limit : UInt32.size = 4294967296 := rfl
  have nonempty : markup ≠ [] := Text.byteLength_pos_iff.mp (by omega)
  have isCopy := markupCopy_of_markup nonempty noBreak
  have wraps : ¬ (OffsetSpan.ofLength 11 markup.byteLength).contains 11 := by
    rw [OffsetSpan.contains_iff, OffsetSpan.ofLength, UInt32.lt_iff_toNat_lt, UInt32.toNat_add,
      Offset.toNat_ofNat small]
    have eleven : UInt32.toNat 11 = 11 := rfl
    omega
  refine ⟨.inr ?_, ?_, ?_⟩
  · rw [isCopy, Span.contains_iff, Span.start_ofLength, Span.stop_ofLength]
    omega
  · have isCode : document.code = (Tsx.copiedPieces ⟨none, markup⟩ filename).text :=
      (congrArg TsxDocument.code (transform_eq _ _ _)).trans (Tsx.agrees_copiedPieces _ _).text
    have start : (Tsx.markupCopy ⟨none, markup⟩).start = 11 := congrArg Span.start isCopy
    rw [Tsx.markupCopy, Span.start_ofLength] at start
    rw [isCode, Tsx.text_copiedPieces, List.append_assoc, Text.byteLength_append, start,
      Text.byteLength_append]
    change 11 < 11 + (markup.byteLength + _)
    omega
  · rw [map_transform_of_markup nonempty noBreak small, OffsetMap.sourcePosition?,
      OffsetMap.lastStartingBy?,
      List.takeWhile_cons_of_pos (by exact decide_eq_true (UInt32.le_refl 11))]
    simp only [List.takeWhile_nil, List.getLast?_singleton, bind, Option.bind, if_neg wraps]

theorem byteLength_replicate (count : Nat) :
    Text.byteLength (List.replicate count 'a') = count := by
  induction count with
  | zero => rfl
  | succ count ih =>
      have size : 'a'.utf8Size = 1 := by decide
      rw [List.replicate_succ, Text.byteLength_cons, ih, size, Nat.add_comm]

/-- A letter that is repeated is all markup, and no line break. -/
theorem parse_replicate (count : Nat) (positive : 0 < count) :
    Component.parse (List.replicate count 'a') = ⟨none, List.replicate count 'a'⟩ ∧
      Tsx.beginsWithBreak (List.replicate count 'a') = false := by
  obtain ⟨rest, rfl⟩ := Nat.exists_eq_add_of_lt positive
  have noBlank : isWhiteSpace 'a' = false := by decide
  rw [Nat.zero_add, List.replicate_succ, Component.parse,
    List.dropWhile_cons_of_neg (by rw [noBlank]; exact Bool.false_ne_true)]
  exact ⟨rfl, rfl⟩

/--
Just below the limit a source has a document beyond it, and the copy of its markup has no source
offsets.  And where white space other than blanks follows a closing fence, the rest of the line is a
part of the markup, so that it has a place in the code.
-/
theorem transform_wraps :
    let large : Text := List.replicate (UInt32.size - 1) 'a'
    let largeDocument := transform (Component.parse large) none .passthrough
    let spaced : Text := "---\n---\u00a0\n<p/>".toList
    let spacedDocument := transform (Component.parse spaced) none .passthrough
    (large.byteLength < UInt32.size ∧ Tsx.IsCopied (Component.parse large) 11 ∧
      11 < largeDocument.code.byteLength ∧ largeDocument.map.sourcePosition? 11 = none) ∧
    (Component.parse spaced).frontmatter.bind Frontmatter.closingFence? = some ⟨4, 7⟩ ∧
      spaced.slice? 4 10 = some "---\u00a0\n".toList ∧
      spacedDocument.map.generatedPosition? 7 = some 13 := by
  intro large largeDocument spaced spacedDocument
  have wraps {count : Nat} (small : count < UInt32.size) (enough : UInt32.size ≤ 11 + count) :
      let source : Text := List.replicate count 'a'
      let document := transform (Component.parse source) none .passthrough
      source.byteLength < UInt32.size ∧ Tsx.IsCopied (Component.parse source) 11 ∧
        11 < document.code.byteLength ∧ document.map.sourcePosition? 11 = none := by
    have limit : UInt32.size = 4294967296 := rfl
    obtain ⟨isComponent, noBreak⟩ := parse_replicate count (by omega)
    have length := byteLength_replicate count
    dsimp only
    rw [isComponent, length]
    exact ⟨small, sourcePosition?_transform_of_large noBreak (by rw [length]; exact small)
      (by rw [length]; exact enough) none⟩
  have isMap : spacedDocument.map =
      .ofSourceMap (Tsx.ofComponent (Component.parse spaced) none .passthrough).sourceMap :=
    (congrArg TsxDocument.map (transform_eq _ _ _)).trans
      (MapBuilder.build_ofAssembly (by decide +kernel))
  refine ⟨wraps (by decide) (by decide), by decide +kernel, by decide +kernel, ?_⟩
  rw [isMap]
  decide +kernel

end ComponentTsx
