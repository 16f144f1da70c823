import ComponentTsx.Text

/-!
# Parts of glob patterns

A pattern is a sequence of parts.  A part stands for some bytes of a path; where
it has alternatives, each of them is a sequence of parts again.  A sequence that
is an empty alternative stands for nothing and is left out.

Patterns may nest only so deep.  A sequence of several items, a repetition, a
class, a group and a choice are a level each.
-/

namespace ComponentTsx.Glob

set_option autoImplicit false

/-- A part of a pattern. -/
inductive Part where
  | literal (char : Char)
  /-- One byte. -/
  | any
  /-- Any bytes. -/
  | star
  /-- Nothing, or any directories with a separator after them. -/
  | leadingDirectories
  /-- A separator with anything after it. -/
  | anythingBelow
  /-- A separator, or any directories between separators. -/
  | innerDirectories
  /-- One byte of some ranges of characters, or one that is not. -/
  | oneOf (negated : Bool) (ranges : List (Char × Char))
  | alternatives (branches : List (List Part))

/-! ## Classes -/

/-- The bytes that a range of characters in a class stands for, as ranges of bytes. -/
def byteRanges (range : Char × Char) : List (UInt8 × UInt8) :=
  let low := Text.utf8 [range.1]
  let high := Text.utf8 [range.2]
  let single := fun (byte : UInt8) => (byte, byte)
  if range.1 = range.2 then low.map single
  else
    low.dropLast.map single ++ (low.getLast?.toList.zip high.head?.toList) ++
      high.tail.map single

/-- Whether a class has a byte. -/
def classHas (negated : Bool) (ranges : List (Char × Char)) (byte : UInt8) : Bool :=
  negated != (ranges.flatMap byteRanges).any fun range => range.1 ≤ byte && byte ≤ range.2

/-! ## Empty alternatives -/

mutual

/-- A part without its empty alternatives, or none if it has no others. -/
def pruned? : Part → Option Part
  | .alternatives branches =>
      match prunedBranches branches with
      | [] => none
      | first :: rest => some (.alternatives (first :: rest))
  | part => some part

/-- A sequence of parts without empty alternatives. -/
def pruned : List Part → List Part
  | [] => []
  | part :: rest =>
      match pruned? part with
      | none => pruned rest
      | some part => part :: pruned rest

/-- Alternatives without the empty ones, also inside of them. -/
def prunedBranches : List (List Part) → List (List Part)
  | [] => []
  | branch :: rest =>
      match pruned branch with
      | [] => prunedBranches rest
      | first :: others => (first :: others) :: prunedBranches rest

end

/-! ## Nesting -/

/-- The deepest nesting that a pattern can have. -/
def nestLimit : Nat := 250

/-- How many items a part has in the sequence that it belongs to. -/
def Part.width : Part → Nat
  | literal char => char.utf8Size
  | anythingBelow => 2
  | _ => 1

/-- How many items some parts have together. -/
def sequenceWidth : List Part → Nat
  | [] => 0
  | part :: rest => part.width + sequenceWidth rest

/-- The level of a sequence with some parts: a single item needs none. -/
def sequenceLevel (parts : List Part) : Nat := if sequenceWidth parts ≤ 1 then 0 else 1

mutual

/-- How many levels a part has. -/
def levels : Part → Nat
  | .literal _ => 0
  | .any => 0
  | .star => 1
  | .anythingBelow => 1
  | .leadingDirectories => 4
  | .innerDirectories => 4
  | .oneOf _ ranges => if (ranges.flatMap byteRanges).length = 1 then 1 else 2
  | .alternatives branches => (if branches.length ≤ 1 then 1 else 2) + branchesLevels branches

/-- The most levels that one of some parts has. -/
def partsLevels : List Part → Nat
  | [] => 0
  | part :: rest => max (levels part) (partsLevels rest)

/-- The most levels that one of some branches has. -/
def branchesLevels : List (List Part) → Nat
  | [] => 0
  | branch :: rest => max (sequenceLevel branch + partsLevels branch) (branchesLevels rest)

end

end ComponentTsx.Glob
