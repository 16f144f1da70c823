import ComponentTsx.Base64

/-!
# Base64 variable-length quantities

An integer is written as digits of five bits, the least significant first.
Each digit but the last carries a continuation bit, and the first digit's
lowest bit is the sign.
-/

namespace ComponentTsx.SourceMap.Vlq

set_option autoImplicit false

/-- The digits of a natural number, five bits each. -/
def encodeNat (value : Nat) : Text :=
  if value < 32 then [Base64.digit value]
  else Base64.digit (32 + value % 32) :: encodeNat (value / 32)

/-- The sign goes into the lowest bit: set for a negative number. -/
def ofInt : Int → Nat
  | .ofNat magnitude => 2 * magnitude
  | .negSucc magnitude => 2 * (magnitude + 1) + 1

/-- The digits of an integer. -/
def encode (value : Int) : Text := encodeNat (ofInt value)

example : encode 0 = "A".toList := by decide +kernel
example : encode (-1) = "D".toList := by decide +kernel
example : encode 16 = "gB".toList := by decide +kernel

end ComponentTsx.SourceMap.Vlq
