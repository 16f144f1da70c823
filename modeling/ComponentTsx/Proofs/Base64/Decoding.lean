import ComponentTsx.Base64
import Mathlib.Tactic.Common

/-!
# Reading base64 back

The reader takes four characters at a time.  Only the last four may be padded,
with one or two `=`, and then the bits that the padding cuts off have to be zero.
The value of a digit is told by the range of characters that it lies in, so the
alphabet of the writer is not taken for granted.

Bytes are read back as they were written, whatever their number
(`decode?_encode`).
-/

namespace ComponentTsx.Base64

set_option autoImplicit false

/-- The six bits that a character stands for. -/
def value? (char : Char) : Option Nat :=
  if 'A' ≤ char ∧ char ≤ 'Z' then some (char.toNat - 'A'.toNat)
  else if 'a' ≤ char ∧ char ≤ 'z' then some (char.toNat - 'a'.toNat + 26)
  else if '0' ≤ char ∧ char ≤ '9' then some (char.toNat - '0'.toNat + 52)
  else if char = '+' then some 62
  else if char = '/' then some 63
  else none

/-- The number that some digits stand for, the most significant one first. -/
def group? (digits : Text) : Option Nat :=
  digits.foldlM (fun group char => (value? char).map (group * 64 + ·)) 0

/-- The bytes that a padded text stands for. -/
def decode? : Text → Option (List UInt8)
  | [] => some []
  | [first, second, '=', '='] => do
      let group ← group? [first, second]
      if group % 16 = 0 then some [.ofNat (group / 16)] else none
  | [first, second, third, '='] => do
      let group ← group? [first, second, third]
      if group % 4 = 0 then some [.ofNat (group / 1024), .ofNat (group / 4 % 256)] else none
  | first :: second :: third :: fourth :: rest => do
      let group ← group? [first, second, third, fourth]
      let bytes ← decode? rest
      return .ofNat (group / 65536) :: .ofNat (group / 256 % 256) :: .ofNat (group % 256) :: bytes
  | _ => none

/-- Every digit is written as a character that stands for it. -/
theorem value?_digit {value : Nat} (isDigit : value < 64) : value? (digit value) = some value := by
  have all : ∀ value < 64, value? (digit value) = some value := by decide +kernel
  exact all value isDigit

/-- No digit is written as padding. -/
theorem digit_ne_padding {value : Nat} (isDigit : value < 64) : digit value ≠ '=' := by
  intro same
  have isValue := value?_digit isDigit
  rw [same] at isValue
  cases isValue

/-- Digits are read as the number that they are written for. -/
theorem group?_map_digit {values : List Nat} (areDigits : ∀ value ∈ values, value < 64) :
    group? (values.map digit) = some (values.foldl (fun group value => group * 64 + value) 0) := by
  suffices go : ∀ start, (values.map digit).foldlM
      (fun group char => (value? char).map (group * 64 + ·)) start =
        some (values.foldl (fun group value => group * 64 + value) start) from go 0
  induction values with
  | nil =>
      intro start
      rfl
  | cons value rest ih =>
      intro start
      obtain ⟨isDigit, areDigits⟩ := List.forall_mem_cons.mp areDigits
      rw [List.map_cons, List.foldlM_cons, value?_digit isDigit]
      exact ih areDigits _

/-- **Bytes are read back as they were written.** -/
theorem decode?_encode (bytes : List UInt8) : decode? (encode bytes) = some bytes := by
  fun_induction encode bytes with
  | case1 => rfl
  | case2 first group =>
      have bound := first.toNat_lt
      have read : group? [digit (group / 64), digit (group % 64)] = some group := by
        have areDigits : ∀ value ∈ [group / 64, group % 64], value < 64 := by
          rw [List.forall_mem_cons, List.forall_mem_singleton]
          omega
        refine (group?_map_digit areDigits).trans (congrArg some ?_)
        simp only [List.foldl_cons, List.foldl_nil]
        omega
      have zeroBits : group % 16 = 0 := Nat.mul_mod_left _ _
      have isFirst : group / 16 = first.toNat := Nat.mul_div_left _ (by decide)
      simp only [decode?, read, bind, Option.bind_some, if_pos zeroBits, isFirst,
        UInt8.ofNat_toNat]
  | case3 first second group =>
      have bound := first.toNat_lt
      have secondBound := second.toNat_lt
      have read : group? [digit (group / 4096), digit (group / 64 % 64), digit (group % 64)] =
          some group := by
        have areDigits : ∀ value ∈ [group / 4096, group / 64 % 64, group % 64], value < 64 := by
          rw [List.forall_mem_cons, List.forall_mem_cons, List.forall_mem_singleton]
          omega
        refine (group?_map_digit areDigits).trans (congrArg some ?_)
        simp only [List.foldl_cons, List.foldl_nil]
        omega
      have notPadding : digit (group % 64) ≠ '=' := digit_ne_padding (by omega)
      have zeroBits : group % 4 = 0 := Nat.mul_mod_left _ _
      have isFirst : group / 1024 = first.toNat := by omega
      have isSecond : group / 4 % 256 = second.toNat := by omega
      rw [decode?]
      · simp only [read, bind, Option.bind_some, if_pos zeroBits, isFirst, isSecond,
          UInt8.ofNat_toNat]
      · exact notPadding
  | case4 first second third rest group ih =>
      have bound := first.toNat_lt
      have secondBound := second.toNat_lt
      have thirdBound := third.toNat_lt
      have read : group? [digit (group / 262144), digit (group / 4096 % 64),
          digit (group / 64 % 64), digit (group % 64)] = some group := by
        have areDigits : ∀ value ∈ [group / 262144, group / 4096 % 64, group / 64 % 64,
            group % 64], value < 64 := by
          rw [List.forall_mem_cons, List.forall_mem_cons, List.forall_mem_cons,
            List.forall_mem_singleton]
          omega
        refine (group?_map_digit areDigits).trans (congrArg some ?_)
        simp only [List.foldl_cons, List.foldl_nil]
        omega
      have notPadding : digit (group % 64) ≠ '=' := digit_ne_padding (by omega)
      have isFirst : group / 65536 = first.toNat := by omega
      have isSecond : group / 256 % 256 = second.toNat := by omega
      have isThird : group % 256 = third.toNat := by omega
      rw [decode?]
      · simp only [read, ih, bind, Option.bind_some, isFirst, isSecond, isThird,
          UInt8.ofNat_toNat, pure]
      · exact fun _ isPadding => absurd isPadding notPadding
      · exact fun isPadding => absurd isPadding notPadding

end ComponentTsx.Base64
