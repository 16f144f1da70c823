import ComponentTsx.Json.Quoted
import ComponentTsx.Json.Value
import Mathlib.Data.List.Basic

/-!
# Written JSON is read back

A quoted text is one token, and the text of that token is the text that was
quoted (`Spells.quote`).  This holds for all characters: those that are escaped
by a letter, by digits or not at all, and those that take two UTF-16 code units.

The tokens of a value are read as that value (`Value.isRead`), so a text that
spells them stands for the value (`Spells.parse?_eq`).
-/

namespace ComponentTsx.Json

set_option autoImplicit false

/-! ## Code units -/

/-- The UTF-16 code units of a character. -/
def unitsOf (char : Char) : List Nat :=
  if char.toNat < 0x10000 then [char.toNat]
  else [0xD800 + (char.toNat - 0x10000) / 0x400, 0xDC00 + (char.toNat - 0x10000) % 0x400]

/-- The code units of a character are no halves of surrogate pairs, or make up a pair. -/
theorem decodeUnits?_unitsOf_append (char : Char) (units : List Nat) :
    decodeUnits? (unitsOf char ++ units) = (decodeUnits? units).map (char :: ·) := by
  have valid : char.toNat < 0xD800 ∨ 0xDFFF < char.toNat ∧ char.toNat < 0x110000 := char.valid
  by_cases basic : char.toNat < 0x10000
  · have whole : char.toNat < 0xD800 ∨ 0xDFFF < char.toNat := by omega
    rw [unitsOf, if_pos basic, List.singleton_append, decodeUnits?.eq_def]
    simp only [if_pos whole, Char.ofNat_toNat]
  · have distance : (char.toNat - 0x10000) / 0x400 < 0x400 := by omega
    have half : ¬(0xD800 + (char.toNat - 0x10000) / 0x400 < 0xD800 ∨
        0xDFFF < 0xD800 + (char.toNat - 0x10000) / 0x400) := by omega
    have pair : 0xD800 + (char.toNat - 0x10000) / 0x400 ≤ 0xDBFF ∧
        0xDC00 ≤ 0xDC00 + (char.toNat - 0x10000) % 0x400 ∧
        0xDC00 + (char.toNat - 0x10000) % 0x400 ≤ 0xDFFF := by omega
    have code : 0x10000 + (0xD800 + (char.toNat - 0x10000) / 0x400 - 0xD800) * 0x400 +
        (0xDC00 + (char.toNat - 0x10000) % 0x400 - 0xDC00) = char.toNat := by omega
    simp only [unitsOf, if_neg basic, List.cons_append, List.nil_append, decodeUnits?, if_neg half,
      if_pos pair, code, Char.ofNat_toNat]

/-- The code units of a text spell the text. -/
theorem decodeUnits?_flatMap_unitsOf (text : Text) :
    decodeUnits? (text.flatMap unitsOf) = some text := by
  induction text with
  | nil => rfl
  | cons char rest ih => rw [List.flatMap_cons, decodeUnits?_unitsOf_append, ih, Option.map_some]

/-! ## Escaped characters -/

theorem hexValue?_hexDigit {value : Nat} (digit : value < 16) :
    hexValue? (hexDigit value) = some value := by
  have all : ∀ value < 16, hexValue? (hexDigit value) = some value := by decide
  exact all value digit

/-- The digits of a control spell its code. -/
theorem hexUnit?_hexDigit {code : Nat} (control : code < 0x20) :
    hexUnit? '0' '0' (hexDigit (code / 16)) (hexDigit (code % 16)) = some code := by
  have zero : hexValue? '0' = some 0 := by decide
  rw [hexUnit?, zero, hexValue?_hexDigit (by omega), hexValue?_hexDigit (by omega)]
  simp only [Option.bind_eq_bind, Option.bind_some, Option.pure_def, Option.some.injEq]
  omega

/-- A backslash and a letter. -/
theorem stringUnits?_letter {letter char : Char} (isLetter : unescape? letter = some char)
    (basic : char.toNat < 0x10000) (rest : Text) :
    stringUnits? ('\\' :: letter :: rest) =
      (stringUnits? rest).map fun (units, length) => (unitsOf char ++ units, length + 2) := by
  have notHex : letter ≠ 'u' := by
    rintro rfl
    cases isLetter
  rw [stringUnits?, isLetter, unitsOf, if_pos basic]
  · cases stringUnits? rest <;> rfl
  · intro _ _ _ _ _ isHex _
    exact notHex isHex

/-- A control that is spelled by digits. -/
theorem stringUnits?_control {char : Char} (control : char.toNat < 0x20) (rest : Text) :
    stringUnits? (['\\', 'u', '0', '0', hexDigit (char.toNat / 16), hexDigit (char.toNat % 16)] ++
        rest) =
      (stringUnits? rest).map fun (units, length) => (unitsOf char ++ units, length + 6) := by
  have basic : char.toNat < 0x10000 := by omega
  simp only [List.cons_append, List.nil_append]
  rw [stringUnits?, hexUnit?_hexDigit control, unitsOf, if_pos basic]
  cases stringUnits? rest <;> rfl

/-- A character that stands for itself. -/
theorem stringUnits?_cons {char : Char} (notQuote : char ≠ '"') (notBackslash : char ≠ '\\')
    (notControl : ¬char.toNat < 0x20) (rest : Text) :
    stringUnits? (char :: rest) =
      (stringUnits? rest).map fun (units, length) => (unitsOf char ++ units, length + 1) := by
  rw [stringUnits?, if_neg (not_or.mpr ⟨notBackslash, notControl⟩)]
  · cases stringUnits? rest <;> rfl
  · exact notQuote
  · intro _ _ _ _ _ isBackslash _
    exact notBackslash isBackslash
  · intro _ _ isBackslash _
    exact notBackslash isBackslash

/-- A character is read as its code units, however it is written. -/
theorem stringUnits?_escape_append (char : Char) (rest : Text) :
    stringUnits? (escape char ++ rest) =
      (stringUnits? rest).map fun (units, length) =>
        (unitsOf char ++ units, length + (escape char).length) := by
  unfold escape
  -- Seven characters are escaped by a letter.
  repeat
    split
    · subst_vars
      exact stringUnits?_letter rfl (by decide) rest
  split
  · rename_i control
    exact stringUnits?_control control rest
  · rename_i notQuote notBackslash _ _ _ _ _ notControl
    exact stringUnits?_cons notQuote notBackslash notControl rest

/-- What is written between the quotes is read as the code units of the text. -/
theorem stringUnits?_flatMap_escape (text rest : Text) :
    stringUnits? (text.flatMap escape ++ '"' :: rest) =
      some (text.flatMap unitsOf, (text.flatMap escape).length + 1) := by
  induction text with
  | nil => rw [List.flatMap_nil, List.nil_append, stringUnits?]; rfl
  | cons char text ih =>
      rw [List.flatMap_cons, List.append_assoc, stringUnits?_escape_append, ih, Option.map_some,
        List.flatMap_cons, List.length_append]
      simp only [Option.some.injEq, Prod.mk.injEq, true_and]
      omega

/-! ## Tokens -/

/-- A text spells tokens if it is read as these, whatever follows it. -/
def Spells (text : Text) (tokens : List Token) : Prop :=
  ∀ rest, tokens? (text ++ rest) = (tokens? rest).map (tokens ++ ·)

namespace Spells

theorem append {first second : Text} {firstTokens secondTokens : List Token}
    (isFirst : Spells first firstTokens) (isSecond : Spells second secondTokens) :
    Spells (first ++ second) (firstTokens ++ secondTokens) := by
  intro rest
  rw [List.append_assoc, isFirst, isSecond, Option.map_map]
  simp only [Function.comp_def, List.append_assoc]

/-- A text that spells tokens consists of them. -/
theorem tokens?_eq {text : Text} {tokens : List Token} (spelled : Spells text tokens) :
    tokens? text = some tokens := by
  have whole := spelled []
  rwa [List.append_nil, tokens?, Option.map_some, List.append_nil] at whole

/-- A bracket, a brace, a comma or a colon is a token. -/
theorem punctuation (char : Char) (isPunct : isPunctuation char = true) :
    Spells [char] [.punctuation char] := by
  intro rest
  have notBlank : isBlank char = false := by
    simp only [isPunctuation, Bool.or_eq_true, decide_eq_true_eq] at isPunct
    rcases isPunct with ((((rfl | rfl) | rfl) | rfl) | rfl) | rfl <;> decide
  rw [List.singleton_append, tokens?, notBlank, if_neg Bool.false_ne_true, readToken?,
    if_pos isPunct]
  rfl

/-- A number is over at a comma. -/
theorem three : Spells ['3', ','] [.scalar .number, .punctuation ','] := by
  intro rest
  have number : readToken? '3' (',' :: rest) = some (.scalar .number, 0) := rfl
  have comma := punctuation ',' rfl rest
  rw [List.singleton_append] at comma
  rw [List.cons_append, List.singleton_append, tokens?, if_neg (by decide), number]
  simp only [List.drop_zero, comma, Option.map_map]
  rfl

/-- **A quoted text is one token, which has the text.** -/
theorem quote (text : Text) : Spells (quote text) [.scalar (.string (some text))] := by
  intro rest
  have notPunctuation : isPunctuation '"' = false := by decide
  have token : readToken? '"' (text.flatMap escape ++ '"' :: rest) =
      some (.scalar (.string (some text)), (text.flatMap escape).length + 1) := by
    rw [readToken?, notPunctuation, if_neg Bool.false_ne_true, if_pos rfl,
      stringUnits?_flatMap_escape, Option.map_some]
    simp only [decodeUnits?_flatMap_unitsOf]
  have next :
      (text.flatMap escape ++ '"' :: rest).drop ((text.flatMap escape).length + 1) = rest := by
    rw [List.drop_append, List.drop_of_length_le (Nat.le_succ _), Nat.add_sub_cancel_left]
    rfl
  rw [Json.quote, List.cons_append, List.append_assoc, List.singleton_append, tokens?,
    if_neg (by decide), token]
  simp only [next]
  rfl

end Spells

/-! ## Values -/

mutual

/-- The tokens of a value. -/
def Value.tokens : Value → List Token
  | .scalar scalar => [.scalar scalar]
  | .array [] => [.punctuation '[', .punctuation ']']
  | .array (first :: rest) => .punctuation '[' :: (first.tokens ++ laterItems rest)
  | .object [] => [.punctuation '{', .punctuation '}']
  | .object ((key, first) :: rest) =>
      .punctuation '{' :: .scalar (.string key) :: .punctuation ':' ::
        (first.tokens ++ laterMembers rest)

/-- The tokens of the items after the first, through the closing bracket. -/
def laterItems : List Value → List Token
  | [] => [.punctuation ']']
  | item :: rest => .punctuation ',' :: (item.tokens ++ laterItems rest)

/-- The tokens of the members after the first, through the closing brace. -/
def laterMembers : List (Option Text × Value) → List Token
  | [] => [.punctuation '}']
  | (key, value) :: rest =>
      .punctuation ',' :: .scalar (.string key) :: .punctuation ':' ::
        (value.tokens ++ laterMembers rest)

end

section Steps

variable {tokens rest : List Token} {value : Value} {length : Nat}

/-- A bracket closes an array after its last item. -/
theorem readItems_last (read : readValue tokens = some (value, length))
    (closed : tokens.drop length = .punctuation ']' :: rest) :
    readItems tokens = some ([value], length + 1) := by
  rw [readItems, read]
  simp only
  split <;> simp_all

/-- A comma leads to another item. -/
theorem readItems_comma (read : readValue tokens = some (value, length))
    (comma : tokens.drop length = .punctuation ',' :: rest) {items : List Value} {more : Nat}
    (later : readItems rest = some (items, more)) :
    readItems tokens = some (value :: items, length + 1 + more) := by
  rw [readItems, read]
  simp only
  split <;> simp_all

/-- A brace closes an object after its last member. -/
theorem readMembers_last (key : Option Text) (read : readValue tokens = some (value, length))
    (closed : tokens.drop length = .punctuation '}' :: rest) :
    readMembers (.scalar (.string key) :: .punctuation ':' :: tokens) =
      some ([(key, value)], length + 3) := by
  rw [readMembers, read]
  simp only
  split <;> simp_all

/-- A comma leads to another member. -/
theorem readMembers_comma (key : Option Text) (read : readValue tokens = some (value, length))
    (comma : tokens.drop length = .punctuation ',' :: rest) {members : List (Option Text × Value)}
    {more : Nat} (later : readMembers rest = some (members, more)) :
    readMembers (.scalar (.string key) :: .punctuation ':' :: tokens) =
      some ((key, value) :: members, length + 3 + more) := by
  rw [readMembers, read]
  simp only
  split <;> simp_all

end Steps

/-- A value does not begin with a closing bracket. -/
theorem Value.exists_tokens_eq_cons (value : Value) :
    ∃ first rest, value.tokens = first :: rest ∧ first ≠ .punctuation ']' := by
  match value with
  | .scalar _ => exact ⟨_, _, Value.tokens.eq_1 .., by simp⟩
  | .array [] => exact ⟨_, _, Value.tokens.eq_2, by simp⟩
  | .array (_ :: _) => exact ⟨_, _, Value.tokens.eq_3 .., by simp⟩
  | .object [] => exact ⟨_, _, Value.tokens.eq_4, by simp⟩
  | .object ((_, _) :: _) => exact ⟨_, _, Value.tokens.eq_5 .., by simp⟩

/-- A value is read from its tokens, whatever follows them. -/
def Value.IsRead (value : Value) : Prop :=
  ∀ more, readValue (value.tokens ++ more) = some (value, value.tokens.length)

mutual

/-- **The tokens of a value are read as the value.** -/
theorem Value.isRead (value : Value) : value.IsRead := by
  intro more
  match value with
  | .scalar _ => simp [Value.tokens, readValue]
  | .array [] => simp [Value.tokens, readValue]
  | .array (first :: rest) =>
      rw [Value.tokens, List.cons_append, readValue,
        readItems_append (Value.isRead first) rest more, Option.map_some, List.length_cons]
      intro next isClosing
      obtain ⟨token, tokens, isFirst, notClosing⟩ := first.exists_tokens_eq_cons
      rw [isFirst] at isClosing
      exact notClosing (List.cons.inj isClosing).1
  | .object [] => simp [Value.tokens, readValue]
  | .object ((key, first) :: rest) =>
      rw [Value.tokens, List.cons_append, List.cons_append, List.cons_append, readValue,
        readMembers_append key (Value.isRead first) rest more, Option.map_some, List.length_cons,
        List.length_cons, List.length_cons]
      intro next isClosing
      cases isClosing

theorem readItems_append {first : Value} (isFirst : first.IsRead) (rest : List Value)
    (more : List Token) :
    readItems (first.tokens ++ laterItems rest ++ more) =
      some (first :: rest, (first.tokens ++ laterItems rest).length) := by
  have read := isFirst (laterItems rest ++ more)
  rw [List.append_assoc, List.length_append]
  match rest with
  | [] =>
      rw [laterItems] at read ⊢
      exact readItems_last read (List.drop_left ..)
  | item :: rest =>
      rw [laterItems] at read ⊢
      rw [readItems_comma read (List.drop_left ..) (readItems_append (Value.isRead item) rest more),
        List.length_cons, Nat.add_assoc, Nat.add_comm 1]

theorem readMembers_append (key : Option Text) {first : Value} (isFirst : first.IsRead)
    (rest : List (Option Text × Value)) (more : List Token) :
    readMembers (.scalar (.string key) :: .punctuation ':' ::
        (first.tokens ++ laterMembers rest ++ more)) =
      some ((key, first) :: rest, (first.tokens ++ laterMembers rest).length + 2) := by
  have read := isFirst (laterMembers rest ++ more)
  rw [List.append_assoc, List.length_append]
  match rest with
  | [] =>
      rw [laterMembers] at read ⊢
      exact readMembers_last key read (List.drop_left ..)
  | (nextKey, value) :: rest =>
      rw [laterMembers] at read ⊢
      rw [readMembers_comma key read (List.drop_left ..)
        (readMembers_append nextKey (Value.isRead value) rest more)]
      simp only [List.length_cons, Option.some.injEq, Prod.mk.injEq, true_and]
      omega

end

/-- A text with the tokens of a value is read as the value. -/
theorem parse?_of_tokens?_eq {text : Text} {value : Value}
    (isText : tokens? text = some value.tokens) : parse? text = some value := by
  have read := value.isRead []
  rw [List.append_nil] at read
  rw [parse?, isText]
  simp [read]

/-- A text that spells the tokens of a value is read as the value. -/
theorem Spells.parse?_eq {text : Text} {value : Value} (spelled : Spells text value.tokens) :
    parse? text = some value := parse?_of_tokens?_eq spelled.tokens?_eq

end ComponentTsx.Json
