import ComponentTsx.Text

/-!
# Base64

Three bytes are written as four digits of six bits, the most significant first.
A last group of one or two bytes is padded with zero bits to whole digits and
with `=` to four characters.
-/

namespace ComponentTsx

set_option autoImplicit false

namespace Base64

/-- The sixty-four digits. -/
def alphabet : Text := "ABCDEFGHIJKLMNOPQRSTUVWXYZabcdefghijklmnopqrstuvwxyz0123456789+/".toList

/-- The character of a six-bit digit. -/
def digit (value : Nat) : Char := alphabet.getD value 'A'

/-- The digits of some bytes. -/
def encode : List UInt8 → Text
  | [] => []
  | [first] =>
      let group := first.toNat * 16
      [digit (group / 64), digit (group % 64), '=', '=']
  | [first, second] =>
      let group := (first.toNat * 256 + second.toNat) * 4
      [digit (group / 4096), digit (group / 64 % 64), digit (group % 64), '=']
  | first :: second :: third :: rest =>
      let group := (first.toNat * 256 + second.toNat) * 256 + third.toNat
      digit (group / 262144) :: digit (group / 4096 % 64) :: digit (group / 64 % 64) ::
        digit (group % 64) :: encode rest

example : encode (Text.utf8 "é!".toList) = "w6kh".toList := by decide +kernel
example : encode (Text.utf8 "a".toList) = "YQ==".toList := by decide +kernel

end Base64

end ComponentTsx
