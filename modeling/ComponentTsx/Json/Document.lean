import ComponentTsx.Json.Quoted

/-!
# JSON documents for readers

A document is laid out with one item or member a line, each level two spaces
further in.  An array without items and an object without members stay on their
line.
-/

namespace ComponentTsx.Json

set_option autoImplicit false

/-- A JSON value to be written, its numbers natural and its members in order. -/
inductive Document where
  | null
  | number (value : Nat)
  | string (text : Text)
  | array (items : List Document)
  | object (members : List (Text × Document))

namespace Document

/-- The document of an optional text. -/
def ofText? : Option Text → Document
  | none => null
  | some text => string text

/-- A line break and the indentation of a level. -/
def newLine (level : Nat) : Text := '\n' :: List.replicate (2 * level) ' '

mutual

/-- The layout of a document at a level. -/
def layout (level : Nat) : Document → Text
  | .null => "null".toList
  | .number value => (toString value).toList
  | .string text => quote text
  | .array [] => "[]".toList
  | .array (first :: rest) =>
      ['['] ++ newLine (level + 1) ++ layout (level + 1) first ++ layoutItems (level + 1) rest ++
        newLine level ++ [']']
  | .object [] => "\x7b\x7d".toList
  | .object ((key, first) :: rest) =>
      ['{'] ++ newLine (level + 1) ++ quote key ++ ": ".toList ++ layout (level + 1) first ++
        layoutMembers (level + 1) rest ++ newLine level ++ ['}']

/-- The layout of the items after the first. -/
def layoutItems (level : Nat) : List Document → Text
  | [] => []
  | item :: rest => [','] ++ newLine level ++ layout level item ++ layoutItems level rest

/-- The layout of the members after the first. -/
def layoutMembers (level : Nat) : List (Text × Document) → Text
  | [] => []
  | (key, value) :: rest =>
      [','] ++ newLine level ++ quote key ++ ": ".toList ++ layout level value ++
        layoutMembers level rest

end

/-- The text of a document. -/
def text (document : Document) : Text := layout 0 document

end Document

end ComponentTsx.Json
