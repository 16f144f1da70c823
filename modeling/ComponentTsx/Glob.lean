import ComponentTsx.Glob.Marks
import ComponentTsx.Glob.Reading

/-!
# Glob patterns

A pattern is matched against the bytes of a whole path.  A question mark stands
for any byte and a star for any bytes, separators included; a class in square
brackets stands for one byte; alternatives stand between braces with commas.  A
backslash takes the next character as it is.  The pattern of two stars alone
matches every path.
-/

namespace ComponentTsx

set_option autoImplicit false

/-- A glob pattern in parts, without empty alternatives. -/
structure Glob where
  parts : List Glob.Part

namespace Glob

/-- The pattern of some parts as they were read. -/
def ofParts : List Part → Glob
  | [.leadingDirectories] => ⟨[.star]⟩
  | parts => ⟨pruned parts⟩

/-- How many levels a pattern has.  The whole of it is a sequence. -/
def depth (glob : Glob) : Nat := 1 + partsLevels glob.parts

/-- The pattern that a text describes, unless it nests too deep. -/
def parse? (text : Text) : Option Glob := do
  let glob := ofParts (← readFrom [] [] none text)
  if glob.depth ≤ nestLimit then some glob else none

/-- Whether a path matches a pattern. -/
def accepts (glob : Glob) (path : Text) : Bool :=
  let bytes := path.utf8
  (Marks.afterAll bytes (Marks.first bytes) glob.parts).getLast? = some true

example : (parse? "**/a/**/*.tsx".toList).map (·.accepts "x/a/b/c.tsx".toList) = some true := by
  decide +kernel
example : (parse? "**/{a,}/[!b-d]".toList).map (·.accepts "a/b".toList) = some false := by
  decide +kernel

end Glob

end ComponentTsx
