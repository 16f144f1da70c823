import ComponentTsx.Token.Literal

/-!
# Strings and templates byte by byte

Strings and templates can be passed over without decoding them.  Every character that
matters is one byte long, and its byte is a part of no other character, so an index that
goes along the bytes meets it.  An escape hides one byte or two, the first of a character
perhaps, and leaves the index inside it; the rest of the character means nothing then.

An index can leave the text behind an escape, so that it is taken back to the end, and to
the beginning of a character if it is inside one.
-/

namespace ComponentTsx

set_option autoImplicit false

namespace Text

/-- The byte of a plain ASCII character. -/
def byteOf (char : Char) : UInt8 := UInt8.ofNat char.toNat

/-- Whether an offset is where a character begins, or the end. -/
def isBoundary (text : Text) (offset : Nat) : Bool := (text.dropBytes? offset).isSome

/-- The last boundary that is no later than an offset. -/
def lastBoundary (text : Text) : Nat → Nat
  | 0 => 0
  | offset + 1 => if text.isBoundary (offset + 1) then offset + 1 else text.lastBoundary offset

/-- An index as an offset of a text. -/
def charBoundary (text : Text) (index : Nat) : Nat := text.lastBoundary (min index text.byteLength)

end Text

namespace Literal

open Text (byteOf)

/--
The index after a string literal, given the index of one of its bytes, and whether a quote closes
it; an open one stops at a line feed or behind the last byte.
-/
def quotedStop (bytes : List UInt8) (quote : UInt8) (index : Nat) : Nat × Bool :=
  if inside : index < bytes.length then
    let byte := bytes[index]
    if byte = byteOf '\\' then
      if bytes[index + 1]? = some (byteOf '\r') then quotedStop bytes quote (index + 3)
      else quotedStop bytes quote (index + 2)
    else if byte = byteOf '\n' then (index, false)
    else if byte = quote then (index + 1, true)
    else quotedStop bytes quote (index + 1)
  else (index, false)
termination_by bytes.length - index

/-- The bytes of a string literal after its opening quote. -/
def quotedBytes (quote : Char) (text : Text) : Nat :=
  let (index, isClosed) := quotedStop text.utf8 (byteOf quote) 0
  if isClosed then index else text.charBoundary index

/-- The index after a string inside a substitution, given the index of one of its bytes. -/
def nestedQuotedStop (bytes : List UInt8) (quote : UInt8) (index : Nat) : Nat :=
  if inside : index < bytes.length then
    let byte := bytes[index]
    if byte = byteOf '\\' then nestedQuotedStop bytes quote (index + 2)
    else if byte = byteOf '\n' then index
    else if byte = quote then index + 1
    else nestedQuotedStop bytes quote (index + 1)
  else bytes.length
termination_by bytes.length - index

theorem nestedQuotedStop_of_length_le {bytes : List UInt8} {index : Nat}
    (outside : bytes.length ≤ index) (quote : UInt8) :
    nestedQuotedStop bytes quote index = bytes.length := by
  rw [nestedQuotedStop, dif_neg (Nat.not_lt.mpr outside)]

/-- A string does not stop before the index, unless the bytes end there. -/
theorem min_le_nestedQuotedStop (bytes : List UInt8) (quote : UInt8) (index : Nat) :
    min index bytes.length ≤ nestedQuotedStop bytes quote index := by
  fun_induction nestedQuotedStop bytes quote index with
  | case1 | case4 => omega
  | case2 | case3 | case5 => omega

theorem lt_nestedQuotedStop_succ {bytes : List UInt8} {index : Nat} (inside : index < bytes.length)
    (quote : UInt8) : index < nestedQuotedStop bytes quote (index + 1) := by
  have := min_le_nestedQuotedStop bytes quote (index + 1)
  omega

/-- Less is left behind a byte. -/
theorem length_drop_succ_lt {bytes : List UInt8} {index : Nat} (inside : index < bytes.length) :
    (bytes.drop (index + 1)).length - 0 < bytes.length - index := by
  rw [List.length_drop]
  omega

/-- The index of the next line feed, or behind the last byte. -/
def lineStop (bytes : List UInt8) (index : Nat) : Nat :=
  match (bytes.drop index).findIdx? (· = byteOf '\n') with
  | some distance => index + distance
  | none => bytes.length

/-- A line goes on behind a slash. -/
theorem lt_lineStop {bytes : List UInt8} {index : Nat} (inside : index < bytes.length)
    (isSlash : bytes[index] = byteOf '/') : index < lineStop bytes index := by
  have noBreak : ¬ decide (bytes[index] = byteOf '\n') = true := by rw [isSlash]; decide
  rw [lineStop, List.drop_eq_getElem_cons inside, List.findIdx?_cons, if_neg noBreak]
  cases (bytes.drop (index + 1)).findIdx? (· = byteOf '\n') with
  | none => exact inside
  | some distance => exact Nat.lt_add_of_pos_right (Nat.succ_pos distance)

/-- How far away the next `*/` is. -/
def commentClose? : List UInt8 → Option Nat
  | [] => none
  | byte :: rest =>
      if byte = byteOf '*' ∧ rest.head? = some (byteOf '/') then some 0
      else (commentClose? rest).map (· + 1)

/-- The index after a block comment, given the index of its slash, or behind the last byte. -/
def commentStop (bytes : List UInt8) (index : Nat) : Nat :=
  match commentClose? (bytes.drop (index + 2)) with
  | some distance => index + 2 + distance + 2
  | none => bytes.length

theorem lt_commentStop {bytes : List UInt8} {index : Nat} (inside : index < bytes.length) :
    index < commentStop bytes index := by
  rw [commentStop]
  cases commentClose? (bytes.drop (index + 2)) with
  | none => exact inside
  | some distance => show index < index + 2 + distance + 2; omega

mutual

/--
The index after a template, given the index of one of its bytes, or behind the last byte.  The
maximum is only for the recursion, as a substitution never stops before it begins
(`min_le_substitutionStop`).
-/
def templateStop (bytes : List UInt8) (index : Nat) : Nat :=
  if inside : index < bytes.length then
    let byte := bytes[index]
    if byte = byteOf '\\' then templateStop bytes (index + 2)
    else if byte = byteOf '\x60' then index + 1
    else if byte = byteOf '$' ∧ bytes[index + 1]? = some (byteOf '{') then
      templateStop bytes (max (index + 2) (substitutionStop bytes 0 (index + 2)))
    else templateStop bytes (index + 1)
  else bytes.length
termination_by bytes.length - index
decreasing_by
  · exact Nat.sub_lt_sub_left inside (Nat.lt_add_of_pos_right Nat.two_pos)
  · exact Nat.sub_lt_sub_left inside (Nat.lt_add_of_pos_right Nat.two_pos)
  · exact Nat.sub_lt_sub_left inside (Nat.lt_of_lt_of_le
      (Nat.lt_add_of_pos_right Nat.two_pos) (Nat.le_max_left _ _))
  · exact Nat.sub_lt_sub_left inside (Nat.lt_succ_self index)

/--
The index after a substitution, given the index of one of its bytes, with `depth` braces still open
inside, or behind the last byte.
-/
def substitutionStop (bytes : List UInt8) (depth index : Nat) : Nat :=
  if inside : index < bytes.length then
    let byte := bytes[index]
    if byte = byteOf '\'' ∨ byte = byteOf '"' then
      substitutionStop bytes depth (nestedQuotedStop bytes byte (index + 1))
    else if byte = byteOf '\x60' then
      substitutionStop bytes depth (index + 1 + templateStop (bytes.drop (index + 1)) 0)
    else if isLine : byte = byteOf '/' ∧ bytes[index + 1]? = some (byteOf '/') then
      substitutionStop bytes depth (lineStop bytes index)
    else if byte = byteOf '/' ∧ bytes[index + 1]? = some (byteOf '*') then
      substitutionStop bytes depth (commentStop bytes index)
    else if byte = byteOf '{' then substitutionStop bytes (depth + 1) (index + 1)
    else if byte = byteOf '}' then
      match depth with
      | 0 => index + 1
      | outer + 1 => substitutionStop bytes outer (index + 1)
    else substitutionStop bytes depth (index + 1)
  else bytes.length
termination_by bytes.length - index
decreasing_by
  · exact Nat.sub_lt_sub_left inside (lt_nestedQuotedStop_succ inside _)
  · exact length_drop_succ_lt inside
  · exact Nat.sub_lt_sub_left inside (Nat.lt_of_lt_of_le (Nat.lt_succ_self index)
      (Nat.le_add_right _ _))
  · exact Nat.sub_lt_sub_left inside (lt_lineStop inside isLine.1)
  · exact Nat.sub_lt_sub_left inside (lt_commentStop inside)
  · exact Nat.sub_lt_sub_left inside (Nat.lt_succ_self index)
  · exact Nat.sub_lt_sub_left inside (Nat.lt_succ_self index)
  · exact Nat.sub_lt_sub_left inside (Nat.lt_succ_self index)

end

/-- The bytes of a template literal after its opening backtick. -/
def templateBytes (text : Text) : Nat := text.charBoundary (templateStop text.utf8 0)

end Literal

end ComponentTsx
