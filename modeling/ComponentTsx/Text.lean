/-!
# Texts and their lengths

A text is a list of characters.  Source locations are byte offsets into the
UTF-8 encoding of a text, so this module measures texts in bytes and cuts them
at byte offsets.  A cut exists only at a character boundary: an offset inside a
character or past the end yields nothing.

Positions handed to editors and debuggers count UTF-16 code units instead, so
that length is defined here as well.
-/

namespace ComponentTsx

set_option autoImplicit false

/-- A text is the list of its characters. -/
abbrev Text := List Char

namespace Text

/-! ## Lengths -/

/-- The number of bytes of the UTF-8 encoding. -/
def byteLength : Text → Nat
  | [] => 0
  | char :: rest => char.utf8Size + byteLength rest

/-- The number of UTF-16 code units of one character: two beyond the basic plane. -/
def utf16Size (char : Char) : Nat :=
  if char.toNat < 0x10000 then 1 else 2

/-- The number of code units of the UTF-16 encoding. -/
def utf16Length : Text → Nat
  | [] => 0
  | char :: rest => utf16Size char + utf16Length rest

@[simp] theorem byteLength_nil : byteLength [] = 0 := rfl

@[simp] theorem byteLength_cons (char : Char) (rest : Text) :
    byteLength (char :: rest) = char.utf8Size + byteLength rest := rfl

@[simp] theorem byteLength_append (first second : Text) :
    byteLength (first ++ second) = byteLength first + byteLength second := by
  induction first with
  | nil => simp
  | cons char rest ih => simp [ih, Nat.add_assoc]

@[simp] theorem utf16Length_append (first second : Text) :
    utf16Length (first ++ second) = utf16Length first + utf16Length second := by
  induction first with
  | nil => simp [utf16Length]
  | cons char rest ih => simp [utf16Length, ih, Nat.add_assoc]

/-- Only the empty text has no bytes. -/
theorem byteLength_pos_iff {text : Text} : 0 < byteLength text ↔ text ≠ [] := by
  cases text with
  | nil => simp
  | cons char rest =>
      have := char.utf8Size_pos
      simp only [byteLength_cons, ne_eq, reduceCtorEq, not_false_eq_true, iff_true]
      omega

/-! ## Bytes -/

/-- The bytes of the UTF-8 encoding. -/
def utf8 (text : Text) : List UInt8 := text.flatMap String.utf8EncodeChar

/-- There are as many bytes as the length in bytes says. -/
theorem length_utf8 (text : Text) : text.utf8.length = text.byteLength := by
  induction text with
  | nil => rfl
  | cons char rest ih =>
      have hsplit : utf8 (char :: rest) = String.utf8EncodeChar char ++ utf8 rest := rfl
      rw [hsplit, List.length_append, ih, String.length_utf8EncodeChar, byteLength_cons]

@[simp] theorem utf8_append (first second : Text) :
    utf8 (first ++ second) = utf8 first ++ utf8 second := by
  simp [utf8]

/-- There is a byte at every offset of a text. -/
theorem exists_byte {text : Text} {offset : Nat} (inside : offset < text.byteLength) :
    ∃ byte, text.utf8[offset]? = some byte := by
  rw [← length_utf8] at inside
  exact ⟨_, List.getElem?_eq_getElem inside⟩

/-- A byte inside the middle of three parts is a byte of that part. -/
theorem getElem?_utf8_append (first middle last : Text) {offset : Nat}
    (inside : offset < middle.byteLength) :
    (utf8 (first ++ middle ++ last))[first.byteLength + offset]? = (utf8 middle)[offset]? := by
  have inside' : offset < (utf8 middle).length := by rw [length_utf8]; exact inside
  rw [utf8_append, utf8_append, List.append_assoc, ← length_utf8 first,
    List.getElem?_append_right (Nat.le_add_right _ _), Nat.add_sub_cancel_left,
    List.getElem?_append_left inside']

/-! ## Cutting at byte offsets -/

/-- What follows a byte offset, if the offset is a character boundary. -/
def dropBytes? : Text → Nat → Option Text
  | text, 0 => some text
  | [], _ + 1 => none
  | char :: rest, offset + 1 =>
      if char.utf8Size ≤ offset + 1 then dropBytes? rest (offset + 1 - char.utf8Size) else none

/-- What precedes a byte offset, if the offset is a character boundary. -/
def takeBytes? : Text → Nat → Option Text
  | _, 0 => some []
  | [], _ + 1 => none
  | char :: rest, offset + 1 =>
      if char.utf8Size ≤ offset + 1 then
        (takeBytes? rest (offset + 1 - char.utf8Size)).map (char :: ·)
      else none

/-- What precedes and what follows a byte offset, if the offset is a character boundary. -/
def splitBytes? (text : Text) (offset : Nat) : Option (Text × Text) :=
  (text.takeBytes? offset).bind fun before => (text.dropBytes? offset).map (before, ·)

/-- The characters between two byte offsets, if both are character boundaries in order. -/
def slice? (text : Text) (start stop : Nat) : Option Text :=
  if start ≤ stop then (text.dropBytes? start).bind (·.takeBytes? (stop - start)) else none

/-- Cutting off a leading part leaves the rest. -/
@[simp] theorem dropBytes?_append (first second : Text) :
    dropBytes? (first ++ second) (byteLength first) = some second := by
  induction first with
  | nil => cases second <;> rfl
  | cons char rest ih =>
      obtain ⟨size, hsize⟩ : ∃ size, char.utf8Size + byteLength rest = size + 1 :=
        ⟨char.utf8Size + byteLength rest - 1, by have := char.utf8Size_pos; omega⟩
      have hle : char.utf8Size ≤ size + 1 := by omega
      have hsub : size + 1 - char.utf8Size = byteLength rest := by omega
      simp only [List.cons_append, byteLength_cons, hsize, dropBytes?, if_pos hle, hsub, ih]

/-- Keeping as many bytes as a leading part has keeps that part. -/
@[simp] theorem takeBytes?_append (first second : Text) :
    takeBytes? (first ++ second) (byteLength first) = some first := by
  induction first with
  | nil => cases second <;> rfl
  | cons char rest ih =>
      obtain ⟨size, hsize⟩ : ∃ size, char.utf8Size + byteLength rest = size + 1 :=
        ⟨char.utf8Size + byteLength rest - 1, by have := char.utf8Size_pos; omega⟩
      have hle : char.utf8Size ≤ size + 1 := by omega
      have hsub : size + 1 - char.utf8Size = byteLength rest := by omega
      simp [hsize, takeBytes?, hle, hsub, ih]

/-- A text is cut in one way only where a leading part of some length ends. -/
theorem append_inj_of_byteLength {first second before after : Text}
    (same : first ++ second = before ++ after) (length : first.byteLength = before.byteLength) :
    first = before ∧ second = after := by
  have taken := takeBytes?_append first second
  have dropped := dropBytes?_append first second
  rw [same, length, takeBytes?_append] at taken
  rw [same, length, dropBytes?_append] at dropped
  exact ⟨(Option.some.inj taken).symm, (Option.some.inj dropped).symm⟩

/-- Offsets past a leading part count from where it ends. -/
theorem dropBytes?_append_add (first second : Text) (offset : Nat) :
    dropBytes? (first ++ second) (byteLength first + offset) = dropBytes? second offset := by
  induction first with
  | nil => simp
  | cons char rest ih =>
      obtain ⟨size, hsize⟩ : ∃ size, char.utf8Size + (byteLength rest + offset) = size + 1 :=
        ⟨char.utf8Size + (byteLength rest + offset) - 1, by have := char.utf8Size_pos; omega⟩
      have hle : char.utf8Size ≤ size + 1 := by omega
      have hsub : size + 1 - char.utf8Size = byteLength rest + offset := by omega
      simp only [List.cons_append, byteLength_cons, Nat.add_assoc, hsize, dropBytes?, if_pos hle,
        hsub, ih]

/-- A slice past a leading part is a slice of what follows. -/
theorem slice?_append_add (first second : Text) (start stop : Nat) :
    slice? (first ++ second) (byteLength first + start) (byteLength first + stop) =
      slice? second start stop := by
  simp only [slice?, Nat.add_le_add_iff_left, dropBytes?_append_add, Nat.add_sub_add_left]

/-- What precedes and what follows an offset make up the text, and the offset is between them. -/
theorem append_eq_of_cut {text before after : Text} {offset : Nat}
    (taken : takeBytes? text offset = some before) (dropped : dropBytes? text offset = some after) :
    before ++ after = text ∧ before.byteLength = offset := by
  induction text generalizing before offset with
  | nil =>
      cases offset with
      | zero => simp_all [takeBytes?, dropBytes?]
      | succ offset => simp [takeBytes?] at taken
  | cons char rest ih =>
      cases offset with
      | zero => simp_all [takeBytes?, dropBytes?]
      | succ offset =>
          by_cases hle : char.utf8Size ≤ offset + 1
          · simp only [takeBytes?, if_pos hle] at taken
            simp only [dropBytes?, if_pos hle] at dropped
            obtain ⟨tail, htail, rfl⟩ := Option.map_eq_some_iff.mp taken
            obtain ⟨happend, hlength⟩ := ih htail dropped
            refine ⟨by rw [List.cons_append, happend], ?_⟩
            rw [byteLength_cons, hlength]
            omega
          · simp [takeBytes?, if_neg hle] at taken

/-- What precedes an offset has as many bytes as the offset says. -/
theorem byteLength_of_takeBytes? {text before : Text} {offset : Nat}
    (taken : takeBytes? text offset = some before) : before.byteLength = offset := by
  induction text generalizing before offset with
  | nil =>
      cases offset with
      | zero => cases taken; rfl
      | succ offset => cases taken
  | cons char rest ih =>
      cases offset with
      | zero => cases taken; rfl
      | succ offset =>
          by_cases hle : char.utf8Size ≤ offset + 1
          · rw [takeBytes?, if_pos hle] at taken
            obtain ⟨tail, htail, rfl⟩ := Option.map_eq_some_iff.mp taken
            rw [byteLength_cons, ih htail]
            omega
          · rw [takeBytes?, if_neg hle] at taken
            cases taken

/-- A slice reaches from its start to its stop. -/
theorem add_byteLength_of_slice? {text part : Text} {start stop : Nat}
    (cut : slice? text start stop = some part) : start + part.byteLength = stop := by
  rw [slice?] at cut
  split at cut
  · obtain ⟨rest, _, taken⟩ := Option.bind_eq_some_iff.mp cut
    have := byteLength_of_takeBytes? taken
    omega
  · cases cut

theorem append_eq_of_splitBytes? {text before after : Text} {offset : Nat}
    (cut : splitBytes? text offset = some (before, after)) :
    before ++ after = text ∧ before.byteLength = offset := by
  obtain ⟨head, taken, rest⟩ := Option.bind_eq_some_iff.mp cut
  obtain ⟨tail, dropped, pair⟩ := Option.map_eq_some_iff.mp rest
  cases pair
  exact append_eq_of_cut taken dropped

/-- A text is cut at the end of any leading part. -/
@[simp] theorem splitBytes?_append (first second : Text) :
    splitBytes? (first ++ second) (byteLength first) = some (first, second) := by
  simp [splitBytes?]

/-- A slice of a text in three parts, cut at the parts' ends, is the middle part. -/
theorem slice?_append (first middle last : Text) :
    slice? (first ++ middle ++ last) (byteLength first) (byteLength first + byteLength middle) =
      some middle := by
  simp [slice?, List.append_assoc]

/-- What precedes an offset begins the text. -/
theorem exists_append_of_takeBytes? {text before : Text} {offset : Nat}
    (taken : text.takeBytes? offset = some before) : ∃ after, text = before ++ after := by
  induction text generalizing before offset with
  | nil =>
      cases offset with
      | zero => exact ⟨[], by cases taken; rfl⟩
      | succ offset => cases taken
  | cons char rest ih =>
      cases offset with
      | zero => exact ⟨char :: rest, by cases taken; rfl⟩
      | succ offset =>
          rw [takeBytes?] at taken
          split at taken
          · obtain ⟨tail, isTail, rfl⟩ := Option.map_eq_some_iff.mp taken
            obtain ⟨after, rfl⟩ := ih isTail
            exact ⟨after, rfl⟩
          · cases taken

/-- What follows an offset ends the text. -/
theorem exists_append_of_dropBytes? {text after : Text} {offset : Nat}
    (dropped : text.dropBytes? offset = some after) :
    ∃ before, text = before ++ after ∧ offset = before.byteLength := by
  induction text generalizing offset with
  | nil =>
      cases offset with
      | zero => exact ⟨[], by cases dropped; rfl, rfl⟩
      | succ offset => cases dropped
  | cons char rest ih =>
      cases offset with
      | zero => exact ⟨[], by cases dropped; rfl, rfl⟩
      | succ offset =>
          rw [dropBytes?] at dropped
          split at dropped
          · rename_i fits
            obtain ⟨before, rfl, length⟩ := ih dropped
            refine ⟨char :: before, rfl, ?_⟩
            rw [byteLength_cons]
            omega
          · cases dropped

/-- A slice is a part of the text, and its start is the length of what precedes it. -/
theorem exists_append_of_slice? {text part : Text} {start stop : Nat}
    (cut : text.slice? start stop = some part) :
    ∃ before after, text = before ++ part ++ after ∧ start = before.byteLength := by
  rw [slice?] at cut
  split at cut
  · obtain ⟨rest, dropped, taken⟩ := Option.bind_eq_some_iff.mp cut
    obtain ⟨before, rfl, length⟩ := exists_append_of_dropBytes? dropped
    obtain ⟨after, rfl⟩ := exists_append_of_takeBytes? taken
    exact ⟨before, after, (List.append_assoc _ _ _).symm, length⟩
  · cases cut

end Text

end ComponentTsx
