import ComponentTsx.Text

/-!
# Lines and columns

A line ends just after a line feed; a carriage return belongs to the line it
stands on.  The index of a text keeps its lines with the offsets where they
begin, so that an offset can be told as a line and a column and back.

Columns count bytes, or UTF-16 code units where a position leaves the program.
-/

namespace ComponentTsx

set_option autoImplicit false

/-- A line and a column, both counted from zero. -/
structure Position where
  line : Nat
  column : Nat
deriving DecidableEq, Repr, Inhabited

/-- Whether the first position comes no later than the second: by line, then by column. -/
def Position.le (first second : Position) : Bool :=
  decide (first.line < second.line) ||
    (decide (first.line = second.line) && decide (first.column ≤ second.column))

/-- A line of a text: where it begins, and its characters with its line feed. -/
structure Line where
  start : Nat
  text : Text
deriving DecidableEq, Repr

namespace Line

/--
The lines of a text, given where the first of them begins and what of it precedes the text, the last
character first.
-/
def linesFrom (start : Nat) (earlier : Text) : Text → List Line
  | [] => [⟨start, earlier.reverse⟩]
  | char :: rest =>
      if char = '\n' then
        let line : Line := ⟨start, (char :: earlier).reverse⟩
        line :: linesFrom (start + line.text.byteLength) [] rest
      else linesFrom start (char :: earlier) rest

end Line

/--
The number of UTF-16 code units in some bytes at the beginning of a text, added to those counted
before.  More bytes than there are count as all of them; bytes that end inside a character count
nothing.
-/
def Text.utf16Before (counted bytes : Nat) : Text → Nat
  | [] => counted
  | char :: rest =>
      if bytes = 0 then counted
      else if char.utf8Size ≤ bytes then
        utf16Before (counted + utf16Size char) (bytes - char.utf8Size) rest
      else 0

/-- The lines of a text. -/
structure LineIndex where
  lines : Array Line
deriving DecidableEq, Repr

namespace LineIndex

/-- The index of a text. -/
def ofText (text : Text) : LineIndex := ⟨(Line.linesFrom 0 [] text).toArray⟩

/-- The number of lines; a text without line feeds has one. -/
def lineCount (index : LineIndex) : Nat := index.lines.size

/-- Where a line begins, if the text has it. -/
def lineStart? (index : LineIndex) (line : Nat) : Option Nat := index.lines[line]?.map (·.start)

/--
The first line from `low` on that begins after an offset, or `high` if no line before that one does.
The lines are halved in each step, since they are in the order of their beginnings.
-/
def firstAfter (index : LineIndex) (offset low high : Nat) : Nat :=
  if low < high then
    let middle := (low + high) / 2
    if (index.lineStart? middle).any (· ≤ offset) then index.firstAfter offset (middle + 1) high
    else index.firstAfter offset low middle
  else low
termination_by high - low

/-- The line of an offset: the last one that begins no later. -/
def lineOf (index : LineIndex) (offset : Nat) : Nat :=
  index.firstAfter offset 0 index.lineCount - 1

/-- The line and byte column of an offset, also past the end of the text. -/
def position (index : LineIndex) (offset : Nat) : Position :=
  let line := index.lineOf offset
  ⟨line, offset - (index.lineStart? line).getD 0⟩

/--
The line and UTF-16 column of an offset.  An offset past the end counts as the end for the column,
and an offset inside a character gets column zero.
-/
def positionUtf16 (index : LineIndex) (offset : Nat) : Position :=
  let line := index.lineOf offset
  ⟨line, index.lines[line]?.elim 0 fun found => found.text.utf16Before 0 (offset - found.start)⟩

/-- The offset of a line and byte column, if the line exists. -/
def offset? (index : LineIndex) (position : Position) : Option Nat :=
  (index.lineStart? position.line).map (· + position.column)

end LineIndex

end ComponentTsx
