import ComponentTsx.Proofs.Markup.Selection
import ComponentTsx.Proofs.SourceMap.Return
import ComponentTsx.Proofs.Tsx.Positions

/-!
# The source map of a document with lowered markup

Whatever lowering a document is made with, its source map has the mapping of the
preamble's copy and, behind it, those that the lowered markup keeps, each moved
to where the lowered code begins (`mappings_ofComponent`).  An offset of the
lowered code therefore has a source offset exactly when a kept mapping has it
(`sourceMap_ofComponent_parse`).
-/

namespace ComponentTsx

set_option autoImplicit false

namespace Tsx

variable (component : Component)

/-- Where the code of the lowered markup begins in a document. -/
def loweredStart (code : Text) : Nat :=
  (closedPreamble component.preamble? ++
    separator (Props.ofPreamble component.preamble?).declaration ++ openingTag code).byteLength

/-- The mapping of the preamble's copy, unless that is empty. -/
def preambleMappings : List Mapping :=
  if component.preambleText = [] then [] else [⟨preambleCopy component, component.preambleSpan⟩]

theorem mappingsFrom_preamblePieces :
    (preamblePieces component).mappingsFrom 0 = preambleMappings component := by
  rw [(agrees_preamblePieces component).mappings 0, Assembly.mappingsFrom_copied_cons,
    Assembly.mappingsFrom_synthetic_cons, Assembly.mappingsFrom_nil, List.append_nil,
    preambleMappings, component.preambleSpan_eq]
  by_cases empty : component.preambleText = []
  · simp [Piece.mapping?, Piece.text, empty]
  · simp [Piece.mapping?, Piece.text, Piece.source?, empty, preambleCopy]

/-- The preamble's copy ends before the lowered code. -/
theorem stop_le_loweredStart (code : Text) {mapping : Mapping}
    (member : mapping ∈ preambleMappings component) :
    mapping.generated.stop ≤ loweredStart component code := by
  rw [← mappingsFrom_preamblePieces] at member
  have stops := (Assembly.bounds_of_mem_mappingsFrom member).2.2
  rw [text_preamblePieces] at stops
  simp only [loweredStart, Text.byteLength_append]
  omega

/-- Code that is empty has no mappings. -/
theorem mappingsFrom_pieces_of_empty {markup : LoweredMarkup} (empty : markup.code = [])
    (offset : Nat) : markup.pieces.mappingsFrom offset = [] := by
  rw [List.eq_nil_iff_forall_not_mem]
  intro mapping member
  have bounds := Assembly.bounds_of_mem_mappingsFrom member
  rw [markup.text_pieces, empty, Text.byteLength_nil] at bounds
  omega

/-- The tags around lowered markup stand for nothing. -/
theorem mappingsFrom_markupPieces (markup : LoweredMarkup) (offset : Nat) :
    (markupPieces markup).mappingsFrom offset =
      markup.pieces.mappingsFrom (offset + (openingTag markup.code).byteLength) := by
  by_cases empty : markup.code = []
  · rw [mappingsFrom_pieces_of_empty empty, markupPieces, if_pos empty]
    simp
  · rw [markupPieces, if_neg empty, openingTag, if_neg empty]
    simp only [Assembly.mappingsFrom_append, Assembly.mappingsFrom_synthetic_cons,
      Assembly.mappingsFrom_nil, List.nil_append, List.append_nil, Assembly.text_cons,
      Assembly.text_nil, Piece.text, Text.byteLength_append, ← beginsWithBreak_iff]
    rfl

/-- The mappings of a document are those of its preamble and those of its markup's pieces. -/
theorem mappings_ofComponent (filename : Option Text) (lower : Lowering) :
    let markup := lower component.markup component.markupSpan.start
    (ofComponent component filename lower).sourceMap.mappings =
      preambleMappings component ++
        markup.pieces.mappingsFrom (loweredStart component markup.code) := by
  intro markup
  have silent (condition : Bool) (text : Text) (offset : Nat) :
      Assembly.mappingsFrom offset (if condition then [.synthetic text] else []) = [] := by
    cases condition <;> simp
  have padded : Assembly.text
      (if (Props.ofPreamble component.preamble?).needsPadding then [.synthetic padding] else []) =
        separator (Props.ofPreamble component.preamble?).declaration := by
    rw [← needsPadding_separator]
    split <;> simp [Piece.text]
  simp only [sourceMap, Assembly.sourceMap, ofComponent, Assembly.mappingsFrom_append, silent,
    mappingsFrom_preamblePieces, mappingsFrom_markupPieces, Assembly.mappingsFrom_synthetic_cons,
    Assembly.mappingsFrom_nil, Assembly.text_append, text_preamblePieces, padded,
    List.append_nil, Nat.zero_add, loweredStart, Text.byteLength_append]
  rfl

/-- The code of a document has the lowered code where that begins. -/
theorem slice?_loweredStart (filename : Option Text) (lower : Lowering) :
    let code := (lower component.markup component.markupSpan.start).code
    (ofComponent component filename lower).code.slice? (loweredStart component code)
      (loweredStart component code + code.byteLength) = some code := by
  intro code
  rw [code_ofComponent]
  have cut := Text.slice?_append (closedPreamble component.preamble? ++
    separator (Props.ofPreamble component.preamble?).declaration ++ openingTag code) code
    (closingTag code ++ signatureLine ((filename.map ComponentName.ofPath).getD [])
      (Props.ofPreamble component.preamble?).declaration ++
      ambientBlock (Props.ofPreamble component.preamble?).declaration)
  simpa [loweredStart] using cut

/-! ## The whole source map -/

section Lowered

variable {component : Component} {filename : Option Text} {lower : Lowering}
  {markup : LoweredMarkup}

/-- The mappings of a document are that of its preamble and those that its markup keeps. -/
theorem mappings_eq_kept (isMarkup : lower component.markup component.markupSpan.start = markup)
    (areParts : ∀ mapping ∈ markup.mappings, LoweredMarkup.IsPartOf markup.code mapping) :
    (ofComponent component filename lower).sourceMap.mappings =
      preambleMappings component ++ (markup.kept.filter (·.HasText)).map
        (·.moved (loweredStart component markup.code)) := by
  rw [mappings_ofComponent, isMarkup, LoweredMarkup.mappingsFrom_pieces areParts]

/-- Lowered code has source offsets where a kept mapping is, and nowhere else. -/
theorem isSome_sourcePosition?_kept_iff
    (isMarkup : lower component.markup component.markupSpan.start = markup)
    (areParts : ∀ mapping ∈ markup.mappings, LoweredMarkup.IsPartOf markup.code mapping)
    (offset : Nat) :
    ((ofComponent component filename lower).sourceMap.sourcePosition?
        (loweredStart component markup.code + offset)).isSome ↔
      ∃ mapping ∈ markup.kept, mapping.generated.contains offset = true := by
  have mappings : (ofComponent component filename lower).sourceMap.mappings = _ :=
    mappings_eq_kept isMarkup areParts
  have isMoved (mapping : Mapping) :
      (mapping.moved (loweredStart component markup.code)).generated.contains
          (loweredStart component markup.code + offset) = true ↔
        mapping.generated.contains offset = true := by
    simp only [Mapping.moved, Span.shift, Span.contains_iff]
    omega
  rw [sourceMap] at mappings ⊢
  rw [Assembly.isSome_sourcePosition?_iff, mappings]
  constructor
  · rintro ⟨mapping, member, inside⟩
    rcases List.mem_append.mp member with inPreamble | inMarkup
    · have stops := stop_le_loweredStart component markup.code inPreamble
      rw [Span.contains_iff] at inside
      omega
    · obtain ⟨mapping, isKept, rfl⟩ := List.mem_map.mp inMarkup
      exact ⟨mapping, (List.mem_filter.mp isKept).1, (isMoved mapping).mp inside⟩
  · rintro ⟨mapping, isKept, inside⟩
    have hasText : mapping.HasText := by
      rw [Span.contains_iff] at inside
      exact Nat.lt_of_le_of_lt inside.1 inside.2
    refine ⟨_, List.mem_append_right _ (List.mem_map_of_mem ?_), (isMoved mapping).mpr inside⟩
    exact List.mem_filter.mpr ⟨isKept, decide_eq_true hasText⟩

end Lowered

end Tsx

end ComponentTsx
