import ComponentTsx.SourceMap

/-!
# Texts assembled from pieces

A generated text is assembled from pieces, in order.  A piece is copied from
the source, stands for a span of the source, or is synthetic and stands for
nothing.  The text of an assembly and its source map are two readings of the
same list of pieces, so the map cannot fall out of step with the text.
-/

namespace ComponentTsx

set_option autoImplicit false

/-- A part of a generated text, with what it stands for in the source. -/
inductive Piece where
  /-- The text that begins at an offset of the source. -/
  | copied (sourceStart : Nat) (text : Text)
  /-- A text in place of a span of the source. -/
  | replaced (source : Span) (text : Text)
  /-- A text that the source does not have. -/
  | synthetic (text : Text)
deriving DecidableEq, Repr

namespace Piece

/-- What the piece adds to the generated text. -/
def text : Piece → Text
  | copied _ text => text
  | replaced _ text => text
  | synthetic text => text

/-- The source span that the piece stands for. -/
def source? : Piece → Option Span
  | copied start text => some (.ofLength start text.byteLength)
  | replaced source _ => some source
  | synthetic _ => none

/-- The mapping of a piece that begins at a generated offset; an empty piece has none. -/
def mapping? (offset : Nat) (piece : Piece) : Option Mapping :=
  if piece.text = [] then none
  else piece.source?.map (⟨.ofLength offset piece.text.byteLength, ·⟩)

end Piece

/-- The pieces of a generated text, in order. -/
abbrev Assembly := List Piece

namespace Assembly

/-- The generated text. -/
def text (assembly : Assembly) : Text := assembly.flatMap Piece.text

/-- The mappings of pieces that begin at a generated offset. -/
def mappingsFrom (offset : Nat) : Assembly → List Mapping
  | [] => []
  | piece :: rest =>
      (piece.mapping? offset).toList ++ mappingsFrom (offset + piece.text.byteLength) rest

/-- The source map of the generated text. -/
def sourceMap (assembly : Assembly) : SourceMap := ⟨assembly.mappingsFrom 0⟩

@[simp] theorem text_nil : text [] = [] := rfl

@[simp] theorem mappingsFrom_nil (offset : Nat) : mappingsFrom offset [] = [] := rfl

@[simp] theorem text_cons (piece : Piece) (rest : Assembly) :
    text (piece :: rest) = piece.text ++ text rest := rfl

@[simp] theorem text_append (first second : Assembly) :
    text (first ++ second) = text first ++ text second := by
  simp [text]

/-- A synthetic piece has no mapping. -/
@[simp] theorem mappingsFrom_synthetic_cons (offset : Nat) (text : Text) (rest : Assembly) :
    mappingsFrom offset (.synthetic text :: rest) =
      mappingsFrom (offset + text.byteLength) rest := by
  have none : (Piece.synthetic text).mapping? offset = none := by
    simp [Piece.mapping?, Piece.source?]
  rw [mappingsFrom, none]
  rfl

@[simp] theorem mappingsFrom_copied_cons (offset start : Nat) (text : Text) (rest : Assembly) :
    mappingsFrom offset (.copied start text :: rest) =
      ((Piece.copied start text).mapping? offset).toList ++
        mappingsFrom (offset + text.byteLength) rest := rfl

@[simp] theorem mappingsFrom_replaced_cons (offset : Nat) (source : Span) (text : Text)
    (rest : Assembly) :
    mappingsFrom offset (.replaced source text :: rest) =
      ((Piece.replaced source text).mapping? offset).toList ++
        mappingsFrom (offset + text.byteLength) rest := rfl

/-- Pieces after others are laid out from where the others end. -/
theorem mappingsFrom_append (offset : Nat) (first second : Assembly) :
    mappingsFrom offset (first ++ second) =
      mappingsFrom offset first ++ mappingsFrom (offset + (text first).byteLength) second := by
  induction first generalizing offset with
  | nil => simp [mappingsFrom]
  | cons piece rest ih => simp [mappingsFrom, ih, Nat.add_assoc]

end Assembly

end ComponentTsx
