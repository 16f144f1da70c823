import ComponentTsx.Glob.Part

/-!
# Marked places

Matching keeps a mark for each place between the bytes of a path, from before the
first byte to after the last.  A place is marked when the parts of a pattern so
far can end there.  A part moves the marks, and a path matches when the last
place is marked in the end.
-/

namespace ComponentTsx.Glob

set_option autoImplicit false

/-- Which of the places between some bytes are marked: one more than there are bytes. -/
abbrev Marks := List Bool

namespace Marks

/-- Only the place before the first byte. -/
def first (bytes : List UInt8) : Marks := true :: bytes.map fun _ => false

/-- The places marked in one or the other. -/
def union (marks others : Marks) : Marks := List.zipWith or marks others

/-- The places one byte on, where that byte passes a test. -/
def step (test : UInt8 → Bool) (bytes : List UInt8) (marks : Marks) : Marks :=
  false :: List.zipWith (fun byte mark => test byte && mark) bytes marks

/-- The marked places and all behind them, and everything if some place before was marked. -/
def spreadFrom (isReached : Bool) : Marks → Marks
  | [] => []
  | mark :: rest => (isReached || mark) :: spreadFrom (isReached || mark) rest

/-- The marked places and all behind them. -/
def spread (marks : Marks) : Marks := spreadFrom false marks

/-- The places behind a separator. -/
def stepSeparator (bytes : List UInt8) (marks : Marks) : Marks := step (· == 0x2F) bytes marks

mutual

/-- The places where a part can end that begins at a marked place. -/
def after (bytes : List UInt8) (marks : Marks) : Part → Marks
  | .literal char =>
      (Text.utf8 [char]).foldl (fun marks byte => step (· == byte) bytes marks) marks
  | .any => step (fun _ => true) bytes marks
  | .star => spread marks
  | .leadingDirectories => union marks (stepSeparator bytes (spread marks))
  | .anythingBelow => spread (stepSeparator bytes marks)
  | .innerDirectories =>
      let inside := stepSeparator bytes marks
      union inside (stepSeparator bytes (spread inside))
  | .oneOf negated ranges => step (classHas negated ranges) bytes marks
  | .alternatives branches => afterOneOf bytes marks branches

/-- The places where a sequence of parts can end that begins at a marked place. -/
def afterAll (bytes : List UInt8) (marks : Marks) : List Part → Marks
  | [] => marks
  | part :: rest => afterAll bytes (after bytes marks part) rest

/-- The places where one of some sequences can end that begins at a marked place. -/
def afterOneOf (bytes : List UInt8) (marks : Marks) : List (List Part) → Marks
  | [] => marks.map fun _ => false
  | branch :: rest => union (afterAll bytes marks branch) (afterOneOf bytes marks rest)

end

end Marks

end ComponentTsx.Glob
