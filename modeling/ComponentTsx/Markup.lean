import ComponentTsx.Assembly

/-!
# Lowered markup

A lowering turns the markup of a component into the children of a TSX fragment.
It tells which spans of its code stand for which spans of the component source;
the rest of the code is synthetic.

Mappings are laid out in the order of where they begin.  One that begins inside
the mapping before it, or does not fit the code, is left out.
-/

namespace ComponentTsx

set_option autoImplicit false

/-- The code of a markup and what its spans stand for in the component source. -/
structure LoweredMarkup where
  code : Text
  mappings : List Mapping
deriving DecidableEq, Repr

/-- A way to lower a markup, given the place where the markup begins in the component source. -/
abbrev Lowering := Text → Nat → LoweredMarkup

namespace LoweredMarkup

/-- The piece of a mapping, after the code before it, and the code that follows. -/
def cut? (position : Nat) (code : Text) (mapping : Mapping) : Option (Text × Piece × Text) :=
  if position ≤ mapping.generated.start ∧ mapping.generated.start ≤ mapping.generated.stop then do
    let (gap, rest) ← code.splitBytes? (mapping.generated.start - position)
    let (mapped, rest) ← rest.splitBytes? mapping.generated.length
    return (gap, .replaced mapping.source mapped, rest)
  else none

/-- The pieces of the code that begins at a position, by the mappings in order. -/
def piecesFrom (position : Nat) (code : Text) : List Mapping → Assembly
  | [] => [.synthetic code]
  | mapping :: others =>
      match cut? position code mapping with
      | some (gap, piece, rest) =>
          .synthetic gap :: piece :: piecesFrom mapping.generated.stop rest others
      | none => piecesFrom position code others

/-- The mappings in the order of where they begin. -/
def inOrder (mappings : List Mapping) : List Mapping :=
  mappings.mergeSort fun first second => first.generated.start ≤ second.generated.start

/-- The pieces of the lowered markup. -/
def pieces (markup : LoweredMarkup) : Assembly := piecesFrom 0 markup.code (inOrder markup.mappings)

end LoweredMarkup

/-- The lowering that takes the markup as it is. -/
def Lowering.passthrough : Lowering := fun markup start =>
  { code := markup
    mappings :=
      if markup = [] then []
      else [⟨.ofLength 0 markup.byteLength, .ofLength start markup.byteLength⟩] }

end ComponentTsx
