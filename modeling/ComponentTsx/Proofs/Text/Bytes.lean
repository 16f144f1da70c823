import ComponentTsx.Token.Bytes

/-!
# Texts in their bytes

All but the first byte of a character are high, and so is the first if there are several; a plain
character has one byte, which tells it.  So an index that goes along the bytes of a text meets each
plain character, and where it is behind the first byte of a character, there is nothing to see
before the next one.  A loop that goes past a high byte without another look (`PassesHigh`) comes
from there to the end of the character.
-/

namespace ComponentTsx.Text

set_option autoImplicit false

/-! ## The bytes of a character -/

/-- Whether a byte is no character of its own. -/
def IsHigh (byte : UInt8) : Prop := 128 ≤ byte.toNat

theorem toNat_byteOf {char : Char} (isAscii : char.toNat < 128) :
    (byteOf char).toNat = char.toNat := by
  rw [byteOf, UInt8.toNat_ofNat']
  omega

/-- A high byte is no plain character. -/
theorem IsHigh.ne {byte : UInt8} (high : IsHigh byte) (special : Char)
    (isPlain : special.toNat < 128) : byte ≠ byteOf special := by
  rintro rfl
  rw [IsHigh, toNat_byteOf isPlain] at high
  omega

theorem IsHigh.ofNat {number : Nat} (lower : 128 ≤ number) (upper : number < 256) :
    IsHigh (UInt8.ofNat number) := by
  rw [IsHigh, UInt8.toNat_ofNat', Nat.mod_eq_of_lt upper]
  exact lower

/-- The first byte tells a plain character, and no other byte of a character does. -/
theorem exists_utf8EncodeChar (char : Char) :
    ∃ first more, String.utf8EncodeChar char = first :: more ∧ (∀ byte ∈ more, IsHigh byte) ∧
      ∀ special : Char, special.toNat < 128 → (first = byteOf special ↔ char = special) := by
  have number : char.toNat = char.val.toNat := rfl
  rw [String.utf8EncodeChar.eq_1]
  by_cases isAscii : char.val.toNat ≤ 127
  · rw [if_pos isAscii]
    refine ⟨_, [], rfl, by simp, ?_⟩
    intro special isPlain
    constructor
    · intro same
      apply Char.toNat_inj.mp
      rw [← toNat_byteOf isPlain, ← same, UInt8.toNat_ofNat']
      omega
    · rintro rfl
      rfl
  · have apart : ∀ first : UInt8, IsHigh first → ∀ special : Char, special.toNat < 128 →
        (first = byteOf special ↔ char = special) := by
      intro first high special isPlain
      refine iff_of_false (high.ne special isPlain) ?_
      rintro rfl
      omega
    have continuation : ∀ number, IsHigh (UInt8.ofNat (number % 64 + 128)) :=
      fun number => IsHigh.ofNat (by omega) (by omega)
    have none : ∀ byte ∈ ([] : List UInt8), IsHigh byte := List.forall_mem_nil _
    rw [if_neg isAscii]
    split
    · exact ⟨_, _, rfl, List.forall_mem_cons.mpr ⟨continuation _, none⟩,
        apart _ (IsHigh.ofNat (by omega) (by omega))⟩
    split
    · exact ⟨_, _, rfl, List.forall_mem_cons.mpr ⟨continuation _,
        List.forall_mem_cons.mpr ⟨continuation _, none⟩⟩,
        apart _ (IsHigh.ofNat (by omega) (by omega))⟩
    · exact ⟨_, _, rfl, List.forall_mem_cons.mpr ⟨continuation _,
        List.forall_mem_cons.mpr ⟨continuation _,
          List.forall_mem_cons.mpr ⟨continuation _, none⟩⟩⟩,
        apart _ (IsHigh.ofNat (by omega) (by omega))⟩

/-- A plain character is found in no other one. -/
theorem mem_utf8EncodeChar {char special : Char} (isPlain : special.toNat < 128)
    (isMember : byteOf special ∈ String.utf8EncodeChar char) : char = special := by
  obtain ⟨first, more, encoded, high, tells⟩ := exists_utf8EncodeChar char
  rw [encoded] at isMember
  cases isMember with
  | head => exact (tells special isPlain).mp rfl
  | tail _ isMore => exact ((high _ isMore).ne special isPlain rfl).elim

theorem byteLength_take_succ (char : Char) (rest : Text) (count : Nat) :
    Text.byteLength ((char :: rest).take (count + 1)) =
      char.utf8Size + Text.byteLength (rest.take count) :=
  rfl

theorem utf8Size_eq_one {char : Char} (isPlain : char.toNat < 128) : char.utf8Size = 1 := by
  rw [← String.length_utf8EncodeChar, String.utf8EncodeChar.eq_1]
  exact congrArg List.length (if_pos (Nat.le_of_lt_succ isPlain))

theorem byteLength_take_add (text : Text) (first second : Nat) :
    Text.byteLength (text.take (second + first)) =
      Text.byteLength (text.take first) + Text.byteLength ((text.drop first).take second) := by
  rw [Nat.add_comm, List.take_add, Text.byteLength_append]

/-! ## Texts in their bytes -/

/-- A text begins at an index of some bytes and goes on to their end. -/
def BeginsAt (bytes : List UInt8) (text : Text) (index : Nat) : Prop :=
  ∃ before, bytes = before ++ text.utf8 ∧ index = before.length

/-- A loop goes on from behind each high byte as it does from the byte. -/
def PassesHigh {α : Type} (bytes : List UInt8) (stop : Nat → α) : Prop :=
  ∀ index (inside : index < bytes.length), IsHigh bytes[index] → stop index = stop (index + 1)

namespace BeginsAt

variable {bytes : List UInt8} {text rest : Text} {char : Char} {index : Nat}

theorem start (text : Text) : BeginsAt text.utf8 text 0 := ⟨[], rfl, rfl⟩

theorem length_eq (begins : BeginsAt bytes text index) :
    bytes.length = index + text.byteLength := by
  obtain ⟨before, rfl, rfl⟩ := begins
  rw [List.length_append, Text.length_utf8]

theorem length_eq_of_nil (begins : BeginsAt bytes [] index) : bytes.length = index :=
  begins.length_eq

theorem drop_eq (begins : BeginsAt bytes text index) : bytes.drop index = text.utf8 := by
  obtain ⟨before, rfl, rfl⟩ := begins
  rw [List.drop_append_of_le_length (Nat.le_refl _), List.drop_length, List.nil_append]

/-- What is left of a text begins behind what has been taken of it. -/
theorem drop (begins : BeginsAt bytes text index) (count : Nat) :
    BeginsAt bytes (text.drop count) (index + Text.byteLength (text.take count)) := by
  obtain ⟨before, rfl, rfl⟩ := begins
  refine ⟨before ++ Text.utf8 (text.take count), ?_, ?_⟩
  · rw [List.append_assoc, ← Text.utf8_append, List.take_append_drop]
  · rw [List.length_append, Text.length_utf8]

theorem tail (begins : BeginsAt bytes (char :: rest) index) :
    BeginsAt bytes rest (index + char.utf8Size) := by
  simpa using begins.drop 1

/-- A text's first byte tells its first character, if that is a plain one. -/
theorem byte_eq_iff (begins : BeginsAt bytes (char :: rest) index) :
    ∃ inside : index < bytes.length, ∀ special : Char, special.toNat < 128 →
      (bytes[index] = byteOf special ↔ char = special) := by
  obtain ⟨before, rfl, rfl⟩ := begins
  obtain ⟨first, more, encoded, -, tells⟩ := exists_utf8EncodeChar char
  have isByte : (before ++ Text.utf8 (char :: rest))[before.length]? = some first := by
    simp [Text.utf8, encoded]
  obtain ⟨inside, rfl⟩ := List.getElem?_eq_some_iff.mp isByte
  exact ⟨inside, tells⟩

theorem byte_eq_some_iff (begins : BeginsAt bytes text index) (special : Char)
    (isPlain : special.toNat < 128) :
    bytes[index]? = some (byteOf special) ↔ text.head? = some special := by
  cases text with
  | nil => simp [begins.length_eq]
  | cons char rest =>
      obtain ⟨inside, tells⟩ := begins.byte_eq_iff
      simp [List.getElem?_eq_getElem inside, tells special isPlain]

/-- A plain character is passed with its byte. -/
theorem next (begins : BeginsAt bytes (char :: rest) index) (isPlain : char.toNat < 128) :
    BeginsAt bytes rest (index + 1) :=
  utf8Size_eq_one isPlain ▸ begins.tail

/-- A loop that has passed the first byte of a character passes all of it. -/
theorem passes {α : Type} {stop : Nat → α} (passesHigh : PassesHigh bytes stop)
    (begins : BeginsAt bytes (char :: rest) index) :
    stop (index + 1) = stop (index + char.utf8Size) := by
  obtain ⟨before, rfl, rfl⟩ := begins
  obtain ⟨first, more, encoded, high, -⟩ := exists_utf8EncodeChar char
  have size : char.utf8Size = more.length + 1 := by
    rw [← String.length_utf8EncodeChar, encoded, List.length_cons]
  have along : ∀ count ≤ more.length,
      stop (before.length + 1) = stop (before.length + 1 + count) := by
    intro count bounded
    induction count with
    | zero => rfl
    | succ count ih =>
        have inMore : count < more.length := bounded
        have isByte : (before ++ Text.utf8 (char :: rest))[before.length + 1 + count]? =
            some more[count] := by
          rw [Nat.add_assoc, List.getElem?_append_right (Nat.le_add_right _ _),
            Nat.add_sub_cancel_left, Nat.add_comm 1]
          simp [Text.utf8, encoded, List.getElem?_append_left inMore]
        obtain ⟨inside, isMore⟩ := List.getElem?_eq_some_iff.mp isByte
        rw [ih (Nat.le_of_lt inMore), ← Nat.add_assoc]
        apply passesHigh _ inside
        rw [isMore]
        exact high _ (List.getElem_mem inMore)
  rw [along more.length (Nat.le_refl _), size, Nat.add_right_comm, Nat.add_assoc]

end BeginsAt

/-! ## Indexes as offsets -/

theorem lastBoundary_of_isBoundary {text : Text} {offset : Nat}
    (isBoundary : text.isBoundary offset = true) : text.lastBoundary offset = offset := by
  cases offset with
  | zero => rfl
  | succ offset => rw [lastBoundary, if_pos isBoundary]

/-- An index that is taken back to a boundary by the length of the text is taken there. -/
theorem charBoundary_eq {text : Text} {index count : Nat}
    (reaches : min index text.byteLength = byteLength (text.take count)) :
    text.charBoundary index = byteLength (text.take count) := by
  rw [charBoundary, reaches]
  apply lastBoundary_of_isBoundary
  have dropped := dropBytes?_append (text.take count) (text.drop count)
  rw [List.take_append_drop] at dropped
  rw [isBoundary, dropped]
  rfl

end ComponentTsx.Text
