import ComponentTsx.Text

/-!
# Quoted JSON strings

A quote, a backslash and the controls below the space are escaped, five of the
controls by a letter and the others by four lowercase hexadecimal digits.  All
other characters stand for themselves.
-/

namespace ComponentTsx.Json

set_option autoImplicit false

/-- A lowercase hexadecimal digit. -/
def hexDigit (value : Nat) : Char := "0123456789abcdef".toList.getD value '0'

/-- How a character is written between the quotes. -/
def escape (char : Char) : Text :=
  if char = '"' then ['\\', '"']
  else if char = '\\' then ['\\', '\\']
  else if char = '\x08' then ['\\', 'b']
  else if char = '\x0c' then ['\\', 'f']
  else if char = '\n' then ['\\', 'n']
  else if char = '\r' then ['\\', 'r']
  else if char = '\t' then ['\\', 't']
  else if char.toNat < 0x20 then
    ['\\', 'u', '0', '0', hexDigit (char.toNat / 16), hexDigit (char.toNat % 16)]
  else [char]

/-- The quoted form of a text. -/
def quote (text : Text) : Text := '"' :: (text.flatMap escape ++ ['"'])

example : quote "a\"\n".toList = "\"a\\\"\\n\"".toList := by decide

end ComponentTsx.Json
