import ComponentTsx.Text

/-!
# White space

The characters with the Unicode property `White_Space`, and texts without white
space at their ends.
-/

namespace ComponentTsx

set_option autoImplicit false

/-- The characters with the property `White_Space`. -/
def isWhiteSpace (char : Char) : Bool :=
  let code := char.toNat
  (0x09 ≤ code && code ≤ 0x0D) || code = 0x20 || code = 0x85 || code = 0xA0 || code = 0x1680 ||
    (0x2000 ≤ code && code ≤ 0x200A) || code = 0x2028 || code = 0x2029 || code = 0x202F ||
    code = 0x205F || code = 0x3000

namespace Text

/-- The text without the white space it begins with. -/
def trimStart (text : Text) : Text := text.dropWhile isWhiteSpace

/-- The text without the white space it ends with. -/
def trimEnd (text : Text) : Text := (text.reverse.dropWhile isWhiteSpace).reverse

/-- The text without white space at either end. -/
def trim (text : Text) : Text := text.trimStart.trimEnd

/-- The text up to its first line feed. -/
def firstLine (text : Text) : Text := text.takeWhile (· ≠ '\n')

end Text

end ComponentTsx
