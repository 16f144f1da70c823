import ComponentTsx.Proofs.Literal.Agreement
import ComponentTsx.Proofs.Text.Bytes

/-!
# Strings and templates along their bytes

Going along the bytes of a string or a template comes to the same place as going along the
characters.  For each loop there are two facts: it passes the high bytes, and at a character it does
what its byte says.  The places where it stops are then found by induction on the lengths.  Only a
string literal without an end can leave the text, by an escape (`min_quotedStop_eq`).
-/

namespace ComponentTsx.Literal

set_option autoImplicit false

open Text (byteOf IsHigh BeginsAt PassesHigh byteLength_take_succ byteLength_take_add
  utf8Size_eq_one exists_utf8EncodeChar mem_utf8EncodeChar)

/-- An escape at which no character is left to hide is the last character. -/
theorem eq_nil_of_hidesNone {char escape : Char} {rest : Text}
    (hidesNone : ∀ hidden later, char = escape → rest = hidden :: later → False)
    (isEscape : char = escape) : rest = [] := by
  cases rest with
  | nil => rfl
  | cons hidden later => exact (hidesNone hidden later isEscape rfl).elim

theorem not_and_head?_of {char first next : Char} {rest : Text}
    (beginsNone : ∀ later, char = first → rest = next :: later → False) :
    ¬ (char = first ∧ rest.head? = some next) := by
  rintro ⟨isFirst, isNext⟩
  obtain ⟨later, isRest⟩ := List.head?_eq_some_iff.mp isNext
  exact beginsNone later isFirst isRest

theorem toNat_quote_lt {quote : Char} (isQuote : quote = '\'' ∨ quote = '"') :
    quote.toNat < 128 := by
  rcases isQuote with rfl | rfl <;> decide

/-! ## Strings inside substitutions -/

section

variable {bytes : List UInt8} {text rest : Text} {char quote : Char} {index : Nat}

theorem passesHigh_nestedQuotedStop (isQuote : quote = '\'' ∨ quote = '"')
    (bytes : List UInt8) : PassesHigh bytes (nestedQuotedStop bytes (byteOf quote)) := by
  intro index inside high
  rw [nestedQuotedStop, dif_pos inside]
  simp only [high.ne '\\' (by decide), high.ne '\n' (by decide),
    high.ne quote (toNat_quote_lt isQuote), if_false]

theorem nestedQuotedStop_beginsAt (isQuote : quote = '\'' ∨ quote = '"')
    (begins : BeginsAt bytes (char :: rest) index) :
    nestedQuotedStop bytes (byteOf quote) index =
      if char = '\\' then nestedQuotedStop bytes (byteOf quote) (index + 2)
      else if char = '\n' then index
      else if char = quote then index + 1
      else nestedQuotedStop bytes (byteOf quote) (index + 1) := by
  obtain ⟨inside, tells⟩ := begins.byte_eq_iff
  rw [nestedQuotedStop, dif_pos inside]
  simp only [tells '\\' (by decide), tells '\n' (by decide), tells quote (toNat_quote_lt isQuote)]

/-- The bytes of a string inside a substitution are those of its characters. -/
theorem nestedQuotedStop_eq (isQuote : quote = '\'' ∨ quote = '"')
    (begins : BeginsAt bytes text index) :
    nestedQuotedStop bytes (byteOf quote) index =
      index + Text.byteLength (text.take (nestedQuotedLength quote text)) := by
  have passesHigh := passesHigh_nestedQuotedStop isQuote bytes
  fun_induction nestedQuotedLength quote text generalizing index with
  | case1 =>
      have length := begins.length_eq_of_nil
      rw [nestedQuotedStop_of_length_le (Nat.le_of_eq length), length]
      rfl
  | case2 hidden rest ih =>
      have behind := begins.next (by decide)
      rw [nestedQuotedStop_beginsAt isQuote begins, if_pos rfl, behind.passes passesHigh,
        ih behind.tail]
      simp only [byteLength_take_succ]
      rw [utf8Size_eq_one (by decide : '\\'.toNat < 128)]
      omega
  | case3 rest =>
      rw [nestedQuotedStop_beginsAt isQuote begins]
      rfl
  | case4 rest noHidden noBreak =>
      have noEscape : quote ≠ '\\' := by rcases isQuote with rfl | rfl <;> decide
      rw [nestedQuotedStop_beginsAt isQuote begins, if_neg noEscape, if_neg noBreak, if_pos rfl,
        byteLength_take_succ, utf8Size_eq_one (toNat_quote_lt isQuote)]
      rfl
  | case5 char rest noHidden noBreak noQuote ih =>
      rw [nestedQuotedStop_beginsAt isQuote begins]
      by_cases isEscape : char = '\\'
      · obtain rfl := eq_nil_of_hidesNone noHidden isEscape
        subst isEscape
        have length := (begins.next (by decide)).length_eq_of_nil
        rw [if_pos rfl, nestedQuotedStop_of_length_le (by omega), length, byteLength_take_succ,
          utf8Size_eq_one (by decide)]
        rfl
      · rw [if_neg isEscape, if_neg noBreak, if_neg noQuote, begins.passes passesHigh,
          ih begins.tail, byteLength_take_succ, Nat.add_assoc]

/-! ## String literals -/

theorem passesHigh_quotedStop (isQuote : quote = '\'' ∨ quote = '"') (bytes : List UInt8) :
    PassesHigh bytes (quotedStop bytes (byteOf quote)) := by
  intro index inside high
  rw [quotedStop, dif_pos inside]
  simp only [high.ne '\\' (by decide), high.ne '\n' (by decide),
    high.ne quote (toNat_quote_lt isQuote), if_false]

theorem quotedStop_of_length_le (outside : bytes.length ≤ index) (quote : UInt8) :
    quotedStop bytes quote index = (index, false) := by
  rw [quotedStop, dif_neg (Nat.not_lt.mpr outside)]

theorem quotedStop_beginsAt (isQuote : quote = '\'' ∨ quote = '"')
    (begins : BeginsAt bytes (char :: rest) index) :
    quotedStop bytes (byteOf quote) index =
      if char = '\\' then
        if rest.head? = some '\r' then quotedStop bytes (byteOf quote) (index + 3)
        else quotedStop bytes (byteOf quote) (index + 2)
      else if char = '\n' then (index, false)
      else if char = quote then (index + 1, true)
      else quotedStop bytes (byteOf quote) (index + 1) := by
  obtain ⟨inside, tells⟩ := begins.byte_eq_iff
  rw [quotedStop, dif_pos inside]
  simp only [tells '\\' (by decide), tells '\n' (by decide), tells quote (toNat_quote_lt isQuote)]
  by_cases isEscape : char = '\\'
  · subst isEscape
    simp only [if_pos, (begins.next (by decide)).byte_eq_some_iff '\r' (by decide)]
  · rw [if_neg isEscape, if_neg isEscape]

/-- A quote is one of the bytes. -/
theorem quotedStop_le_of_closed {quote : UInt8} (isClosed : (quotedStop bytes quote index).2) :
    (quotedStop bytes quote index).1 ≤ bytes.length := by
  fun_induction quotedStop bytes quote index with
  | case1 index _ _ _ _ ih | case2 index _ _ _ _ ih | case5 index _ _ _ _ _ ih => exact ih isClosed
  | case4 index inside => exact inside
  | case3 | case6 => cases isClosed

/-- The bytes of a string literal are those of its characters, but for what an escape reaches. -/
theorem min_quotedStop_eq (isQuote : quote = '\'' ∨ quote = '"')
    (begins : BeginsAt bytes text index) :
    min (quotedStop bytes (byteOf quote) index).1 bytes.length =
      index + Text.byteLength (text.take (quotedLength quote text)) := by
  have passesHigh := passesHigh_quotedStop isQuote bytes
  have noEscape : quote ≠ '\\' := by rcases isQuote with rfl | rfl <;> decide
  fun_induction quotedLength quote text generalizing index with
  | case1 =>
      have length := begins.length_eq_of_nil
      rw [quotedStop_of_length_le (Nat.le_of_eq length), length]
      exact Nat.min_self index
  | case2 hidden rest ih =>
      have behind := (begins.next (by decide)).next (by decide)
      have passed := behind.passes passesHigh
      rw [quotedStop_beginsAt isQuote begins, if_pos rfl, List.head?_cons, if_pos rfl, passed,
        ih behind.tail]
      simp only [byteLength_take_succ, utf8Size_eq_one (by decide : '\\'.toNat < 128),
        utf8Size_eq_one (by decide : '\r'.toNat < 128)]
      omega
  | case3 hidden rest noReturn ih =>
      have behind := begins.next (by decide)
      have passed := behind.passes passesHigh
      rw [quotedStop_beginsAt isQuote begins, if_pos rfl, byteLength_take_succ,
        byteLength_take_succ, utf8Size_eq_one (by decide)]
      by_cases isReturn : hidden = '\r'
      · -- Nothing is left for the carriage return to hide.
        obtain rfl := eq_nil_of_hidesNone noReturn isReturn
        subst isReturn
        have length := (behind.next (by decide)).length_eq_of_nil
        rw [List.head?_cons, if_pos rfl, quotedStop_of_length_le (by omega), length]
        show min (index + 3) (index + 2) = index + 2
        omega
      · rw [List.head?_cons, if_neg (by simpa using isReturn), passed, ih behind.tail]
        omega
  | case4 rest =>
      have inside : index ≤ bytes.length := begins.length_eq ▸ Nat.le_add_right _ _
      rw [quotedStop_beginsAt isQuote begins]
      exact Nat.min_eq_left inside
  | case5 rest noHidden noHidden' noBreak =>
      have inside := begins.byte_eq_iff.1
      rw [quotedStop_beginsAt isQuote begins, if_neg noEscape, if_neg noBreak, if_pos rfl,
        byteLength_take_succ, utf8Size_eq_one (toNat_quote_lt isQuote)]
      exact Nat.min_eq_left inside
  | case6 char rest noHidden noHidden' noBreak noQuote ih =>
      rw [quotedStop_beginsAt isQuote begins]
      by_cases isEscape : char = '\\'
      · obtain rfl := eq_nil_of_hidesNone noHidden' isEscape
        subst isEscape
        have length := (begins.next (by decide)).length_eq_of_nil
        rw [if_pos rfl, List.head?_nil, if_neg (by simp), quotedStop_of_length_le (by omega),
          length, byteLength_take_succ, utf8Size_eq_one (by decide)]
        exact Nat.min_eq_right (Nat.le_succ _)
      · rw [if_neg isEscape, if_neg noBreak, if_neg noQuote, begins.passes passesHigh,
          ih begins.tail, byteLength_take_succ, Nat.add_assoc]

end

/-- **A string literal has the bytes of its characters.** -/
theorem quotedBytes_eq {quote : Char} (isQuote : quote = '\'' ∨ quote = '"') (text : Text) :
    quotedBytes quote text = Text.byteLength (text.take (quotedLength quote text)) := by
  have reaches := min_quotedStop_eq isQuote (BeginsAt.start text)
  have inside : (quotedStop text.utf8 (byteOf quote) 0).2 = true → _ := quotedStop_le_of_closed
  rw [Text.length_utf8] at reaches inside
  rw [Nat.zero_add] at reaches
  rw [quotedBytes]
  generalize quotedStop text.utf8 (byteOf quote) 0 = stop at reaches inside
  obtain ⟨index, isClosed⟩ := stop
  cases isClosed with
  | false => exact Text.charBoundary_eq reaches
  | true => exact (Nat.min_eq_left (inside rfl)).symm.trans reaches

/-- Both loops over strings come to one index exactly if the readings of the string end together. -/
theorem quotedBytes_eq_nestedQuotedStop_iff {quote : Char} (isQuote : quote = '\'' ∨ quote = '"')
    (text : Text) :
    quotedBytes quote text = nestedQuotedStop text.utf8 (byteOf quote) 0 ↔
      endTogether quote .inStep text := by
  rw [quotedBytes_eq isQuote, nestedQuotedStop_eq isQuote (BeginsAt.start text), Nat.zero_add,
    byteLength_take_inj (quotedLength_le quote text) (nestedQuotedLength_le quote text),
    endTogether_iff isQuote]
  rfl

/-! ## Comments inside substitutions -/

/-- The first line feed among the bytes is where the line ends. -/
theorem findIdx?_utf8 (text : Text) :
    (text.utf8.findIdx? (· = byteOf '\n')).getD text.byteLength =
      Text.byteLength (text.take (lineCommentLength text)) := by
  induction text with
  | nil => rfl
  | cons char rest ih =>
      by_cases isBreak : char = '\n'
      · subst isBreak
        rfl
      · have none : (String.utf8EncodeChar char).findIdx? (· = byteOf '\n') = none := by
          rw [List.findIdx?_eq_none_iff]
          intro byte isMember
          rw [decide_eq_false_iff_not]
          rintro rfl
          exact isBreak (mem_utf8EncodeChar (by decide) isMember)
        have length : lineCommentLength (char :: rest) = lineCommentLength rest + 1 := by
          simp [lineCommentLength, isBreak]
        have split : Text.utf8 (char :: rest) = String.utf8EncodeChar char ++ Text.utf8 rest := rfl
        rw [split, List.findIdx?_append, none, Option.none_or, String.length_utf8EncodeChar, length,
          byteLength_take_succ, ← ih, Text.byteLength_cons]
        cases (Text.utf8 rest).findIdx? (· = byteOf '\n') with
        | none => rfl
        | some distance => exact Nat.add_comm distance char.utf8Size

theorem lineStop_eq {bytes : List UInt8} {text : Text} {index : Nat}
    (begins : BeginsAt bytes text index) :
    lineStop bytes index = index + Text.byteLength (text.take (lineCommentLength text)) := by
  rw [lineStop, begins.drop_eq, ← findIdx?_utf8, begins.length_eq]
  cases text.utf8.findIdx? (· = byteOf '\n') <;> rfl

theorem commentClose?_append_of_high {more : List UInt8} (high : ∀ byte ∈ more, IsHigh byte)
    (later : List UInt8) :
    commentClose? (more ++ later) = (commentClose? later).map (· + more.length) := by
  induction more with
  | nil => simp
  | cons byte more ih =>
      have noStar := (high byte List.mem_cons_self).ne '*' (by decide)
      rw [List.cons_append, commentClose?, if_neg (fun found => noStar found.1),
        ih fun other isMore => high other (List.mem_cons_of_mem _ isMore), Option.map_map]
      rfl

/-- The first `*/` among the bytes is where the comment ends. -/
theorem commentClose?_utf8 (text : Text) :
    ((commentClose? text.utf8).map (· + 2)).getD text.byteLength =
      Text.byteLength (text.take (blockCommentLength text)) := by
  fun_induction blockCommentLength text with
  | case1 => rfl
  | case2 rest => rfl
  | case3 char rest noClose ih =>
      obtain ⟨first, more, encoded, high, tells⟩ := exists_utf8EncodeChar char
      have size : char.utf8Size = more.length + 1 := by
        rw [← String.length_utf8EncodeChar, encoded, List.length_cons]
      have opensNone : ¬ (first = byteOf '*' ∧
          (more ++ Text.utf8 rest).head? = some (byteOf '/')) := by
        rintro ⟨isStar, isSlash⟩
        have same : char = '*' := (tells '*' (by decide)).mp isStar
        have alone : more = [] := by
          rw [same, utf8Size_eq_one (by decide)] at size
          exact List.eq_nil_of_length_eq_zero (by omega)
        rw [alone, List.nil_append, List.head?_eq_getElem?,
          (BeginsAt.start rest).byte_eq_some_iff '/' (by decide)] at isSlash
        obtain ⟨later, isRest⟩ := List.head?_eq_some_iff.mp isSlash
        exact noClose later same isRest
      have split : Text.utf8 (char :: rest) = first :: (more ++ Text.utf8 rest) := by
        rw [← List.cons_append, ← encoded]
        rfl
      rw [split, commentClose?, if_neg opensNone, commentClose?_append_of_high high,
        byteLength_take_succ, ← ih, Text.byteLength_cons, size]
      cases commentClose? (Text.utf8 rest) with
      | none => rfl
      | some distance =>
          show distance + more.length + 1 + 2 = more.length + 1 + (distance + 2)
          omega

/-- The bytes of a block comment are those of its characters. -/
theorem commentStop_eq {bytes : List UInt8} {text : Text} {index : Nat}
    (begins : BeginsAt bytes text (index + 2)) :
    commentStop bytes index =
      index + 2 + Text.byteLength (text.take (blockCommentLength text)) := by
  rw [commentStop, begins.drop_eq, ← commentClose?_utf8, begins.length_eq]
  cases commentClose? text.utf8 with
  | none => rfl
  | some distance => exact Nat.add_assoc _ _ _

/-! ## Templates and substitutions -/

section

variable {bytes : List UInt8} {text rest : Text} {char : Char} {index : Nat}

theorem templateStop_of_length_le (outside : bytes.length ≤ index) :
    templateStop bytes index = bytes.length := by
  rw [templateStop, dif_neg (Nat.not_lt.mpr outside)]

theorem substitutionStop_of_length_le (outside : bytes.length ≤ index) (depth : Nat) :
    substitutionStop bytes depth index = bytes.length := by
  rw [substitutionStop.eq_def, dif_neg (Nat.not_lt.mpr outside)]

theorem passesHigh_templateStop (bytes : List UInt8) : PassesHigh bytes (templateStop bytes) := by
  intro index inside high
  rw [templateStop, dif_pos inside]
  simp only [high.ne '\\' (by decide), high.ne '\x60' (by decide), high.ne '$' (by decide),
    false_and, if_false]

theorem passesHigh_substitutionStop (bytes : List UInt8) (depth : Nat) :
    PassesHigh bytes (substitutionStop bytes depth) := by
  intro index inside high
  rw [substitutionStop.eq_def, dif_pos inside]
  simp only [high.ne '\'' (by decide), high.ne '"' (by decide), high.ne '\x60' (by decide),
    high.ne '/' (by decide), high.ne '{' (by decide), high.ne '}' (by decide), false_and, or_self,
    dite_false, if_false]

/-- A substitution does not stop before the index, unless the bytes end there. -/
theorem min_le_substitutionStop (bytes : List UInt8) (depth index : Nat) :
    min index bytes.length ≤ substitutionStop bytes depth index := by
  induction left : bytes.length - index using Nat.strongRecOn generalizing depth index with
  | ind left ih =>
      have later : ∀ depth index', index < index' → index < bytes.length →
          min index bytes.length ≤ substitutionStop bytes depth index' := by
        intro depth index' behind inside
        have := ih (bytes.length - index') (by omega) depth index' rfl
        omega
      by_cases inside : index < bytes.length
      · rw [substitutionStop.eq_def, dif_pos inside]
        dsimp only
        split
        · exact later _ _ (lt_nestedQuotedStop_succ inside _) inside
        split
        · exact later _ _ (by omega) inside
        split
        · rename_i isLine
          exact later _ _ (lt_lineStop inside isLine.1) inside
        split
        · exact later _ _ (lt_commentStop inside) inside
        split
        · exact later _ _ (Nat.lt_succ_self index) inside
        split
        · cases depth with
          | zero => show min index bytes.length ≤ index + 1; omega
          | succ outer => exact later _ _ (Nat.lt_succ_self index) inside
        · exact later _ _ (Nat.lt_succ_self index) inside
      · rw [substitutionStop_of_length_le (Nat.le_of_not_lt inside)]
        exact Nat.min_le_right _ _

theorem templateStop_beginsAt (begins : BeginsAt bytes (char :: rest) index) :
    templateStop bytes index =
      if char = '\\' then templateStop bytes (index + 2)
      else if char = '\x60' then index + 1
      else if char = '$' ∧ rest.head? = some '{' then
        templateStop bytes (substitutionStop bytes 0 (index + 2))
      else templateStop bytes (index + 1) := by
  obtain ⟨inside, tells⟩ := begins.byte_eq_iff
  rw [templateStop, dif_pos inside]
  simp only [tells '\\' (by decide), tells '\x60' (by decide), tells '$' (by decide)]
  by_cases isDollar : char = '$'
  · subst isDollar
    have behind := begins.next (by decide)
    simp only [behind.byte_eq_some_iff '{' (by decide)]
    by_cases opens : rest.head? = some '{'
    · obtain ⟨later, rfl⟩ := List.head?_eq_some_iff.mp opens
      have length := (behind.next (by decide)).length_eq
      have := min_le_substitutionStop bytes 0 (index + 2)
      rw [Nat.max_eq_right (by omega)]
    · simp only [opens, and_false, if_false]
  · simp only [isDollar, false_and, if_false]

theorem substitutionStop_beginsAt (begins : BeginsAt bytes (char :: rest) index) (depth : Nat) :
    substitutionStop bytes depth index =
      if char = '\'' ∨ char = '"' then
        substitutionStop bytes depth (nestedQuotedStop bytes (byteOf char) (index + 1))
      else if char = '\x60' then
        substitutionStop bytes depth (index + 1 + templateStop (bytes.drop (index + 1)) 0)
      else if char = '/' ∧ rest.head? = some '/' then
        substitutionStop bytes depth (lineStop bytes index)
      else if char = '/' ∧ rest.head? = some '*' then
        substitutionStop bytes depth (commentStop bytes index)
      else if char = '{' then substitutionStop bytes (depth + 1) (index + 1)
      else if char = '}' then
        match depth with
        | 0 => index + 1
        | outer + 1 => substitutionStop bytes outer (index + 1)
      else substitutionStop bytes depth (index + 1) := by
  obtain ⟨inside, tells⟩ := begins.byte_eq_iff
  rw [substitutionStop.eq_def, dif_pos inside]
  simp only [tells '\'' (by decide), tells '"' (by decide), tells '\x60' (by decide),
    tells '/' (by decide), tells '{' (by decide), tells '}' (by decide)]
  by_cases isQuote : char = '\'' ∨ char = '"'
  · have isByte : bytes[index] = byteOf char := (tells char (toNat_quote_lt isQuote)).mpr rfl
    rw [if_pos isQuote, if_pos isQuote, isByte]
  rw [if_neg isQuote, if_neg isQuote]
  by_cases isSlash : char = '/'
  · subst isSlash
    have behind := begins.next (by decide)
    simp only [behind.byte_eq_some_iff '/' (by decide), behind.byte_eq_some_iff '*' (by decide)]
    rfl
  · simp only [isSlash, false_and, if_false]
    rfl

/-- On some text, the loop over a template comes to the place that its characters say. -/
def TemplateFollows (text : Text) : Prop :=
  ∀ bytes index, BeginsAt bytes text index →
    templateStop bytes index = index + Text.byteLength (text.take (templateLength text))

/-- On some text, the loop over a substitution comes to the place that its characters say. -/
def SubstitutionFollows (depth : Nat) (text : Text) : Prop :=
  ∀ bytes index, BeginsAt bytes text index →
    substitutionStop bytes depth index =
      index + Text.byteLength (text.take (substitutionLength depth text))

namespace TemplateFollows

/-- Both pass over some characters first. -/
theorem past (count : Nat) (later : TemplateFollows (text.drop count))
    (isLength : templateLength text = templateLength (text.drop count) + count)
    (passed : ∀ bytes index, BeginsAt bytes text index → templateStop bytes index =
      templateStop bytes (index + Text.byteLength (text.take count))) : TemplateFollows text := by
  intro bytes index begins
  rw [passed _ _ begins, later _ _ (begins.drop count), isLength, byteLength_take_add,
    Nat.add_assoc]

theorem nil : TemplateFollows [] := by
  intro bytes index begins
  have length := begins.length_eq_of_nil
  rw [templateStop_of_length_le (Nat.le_of_eq length), length, templateLength]
  rfl

theorem escape (hidden : Char) (later : TemplateFollows rest) :
    TemplateFollows ('\\' :: hidden :: rest) := by
  refine past 2 later (by rw [templateLength]; rfl) fun bytes index begins => ?_
  have passed := (begins.next (by decide)).passes (passesHigh_templateStop bytes)
  rw [templateStop_beginsAt begins, if_pos rfl, passed, Nat.add_assoc]
  rfl

theorem closing (rest : Text) : TemplateFollows ('\x60' :: rest) := by
  intro bytes index begins
  rw [templateStop_beginsAt begins, templateLength]
  rfl

theorem substitution (inner : SubstitutionFollows 0 rest)
    (later : TemplateFollows (rest.drop (substitutionLength 0 rest))) :
    TemplateFollows ('$' :: '{' :: rest) := by
  refine past (substitutionLength 0 rest + 2) later (by rw [templateLength]; rfl)
    fun bytes index begins => ?_
  have opens : '$' = '$' ∧ ('{' :: rest).head? = some '{' := ⟨rfl, rfl⟩
  have behind := (begins.next (by decide)).next (by decide)
  rw [templateStop_beginsAt begins, if_neg (by decide), if_neg (by decide), if_pos opens,
    inner _ _ behind, byteLength_take_add _ 2, ← Nat.add_assoc index (Text.byteLength _)]
  rfl

theorem other (noHidden : ∀ hidden later, char = '\\' → rest = hidden :: later → False)
    (noTick : char ≠ '\x60') (noOpen : ∀ later, char = '$' → rest = '{' :: later → False)
    (later : TemplateFollows rest) : TemplateFollows (char :: rest) := by
  have isLength := templateLength.eq_5 _ _ noHidden noTick noOpen
  by_cases isEscape : char = '\\'
  · intro bytes index begins
    obtain rfl := eq_nil_of_hidesNone noHidden isEscape
    subst isEscape
    have length := (begins.next (by decide)).length_eq_of_nil
    rw [templateStop_beginsAt begins, if_pos rfl, templateStop_of_length_le (by omega), length,
      isLength, templateLength]
    rfl
  · refine past 1 later isLength fun bytes index begins => ?_
    rw [templateStop_beginsAt begins, if_neg isEscape, if_neg noTick,
      if_neg (not_and_head?_of noOpen)]
    exact begins.passes (passesHigh_templateStop bytes)

end TemplateFollows

namespace SubstitutionFollows

variable {depth : Nat}

/-- Both pass over some characters first. -/
theorem past {laterDepth : Nat} (count : Nat)
    (later : SubstitutionFollows laterDepth (text.drop count))
    (isLength : substitutionLength depth text =
      substitutionLength laterDepth (text.drop count) + count)
    (passed : ∀ bytes index, BeginsAt bytes text index → substitutionStop bytes depth index =
      substitutionStop bytes laterDepth (index + Text.byteLength (text.take count))) :
    SubstitutionFollows depth text := by
  intro bytes index begins
  rw [passed _ _ begins, later _ _ (begins.drop count), isLength, byteLength_take_add,
    Nat.add_assoc]

theorem nil : SubstitutionFollows depth [] := by
  intro bytes index begins
  have length := begins.length_eq_of_nil
  rw [substitutionStop_of_length_le (Nat.le_of_eq length), length, substitutionLength]
  rfl

theorem template (inner : TemplateFollows rest)
    (later : SubstitutionFollows depth (rest.drop (templateLength rest))) :
    SubstitutionFollows depth ('\x60' :: rest) := by
  refine past (templateLength rest + 1) later (by rw [substitutionLength]; rfl)
    fun bytes index begins => ?_
  have behind := begins.next (by decide)
  rw [substitutionStop_beginsAt begins, if_neg (by decide), if_pos rfl, behind.drop_eq,
    inner _ _ (BeginsAt.start rest), Nat.zero_add, byteLength_take_add _ 1, Nat.add_assoc]
  rfl

/-- A line comment is measured from its first slash. -/
theorem lineComment (later : SubstitutionFollows depth (rest.drop (lineCommentLength rest))) :
    SubstitutionFollows depth ('/' :: '/' :: rest) := by
  refine past (lineCommentLength rest + 2) later (by rw [substitutionLength]; rfl)
    fun bytes index begins => ?_
  have slashes : '/' = '/' ∧ ('/' :: rest).head? = some '/' := ⟨rfl, rfl⟩
  have isLength : lineCommentLength ('/' :: '/' :: rest) = lineCommentLength rest + 2 := by
    simp [lineCommentLength]
  rw [substitutionStop_beginsAt begins, if_neg (by decide), if_neg (by decide), if_pos slashes,
    lineStop_eq begins, isLength]

theorem blockComment (later : SubstitutionFollows depth (rest.drop (blockCommentLength rest))) :
    SubstitutionFollows depth ('/' :: '*' :: rest) := by
  refine past (blockCommentLength rest + 2) later (by rw [substitutionLength]; rfl)
    fun bytes index begins => ?_
  have opens : '/' = '/' ∧ ('*' :: rest).head? = some '*' := ⟨rfl, rfl⟩
  have behind := (begins.next (by decide)).next (by decide)
  rw [substitutionStop_beginsAt begins, if_neg (by decide), if_neg (by decide), if_neg (by simp),
    if_pos opens, commentStop_eq behind, byteLength_take_add _ 2,
    ← Nat.add_assoc index (Text.byteLength _)]
  rfl

theorem openBrace (later : SubstitutionFollows (depth + 1) rest) :
    SubstitutionFollows depth ('{' :: rest) := by
  refine past 1 later (by rw [substitutionLength]; rfl) fun bytes index begins => ?_
  rw [substitutionStop_beginsAt begins, if_neg (by decide), if_neg (by decide), if_neg (by simp),
    if_neg (by simp), if_pos rfl]
  rfl

theorem closing (rest : Text) : SubstitutionFollows 0 ('}' :: rest) := by
  intro bytes index begins
  rw [substitutionStop_beginsAt begins, if_neg (by decide), if_neg (by decide), if_neg (by simp),
    if_neg (by simp), if_neg (by decide), if_pos rfl, substitutionLength]
  rfl

theorem closeBrace (later : SubstitutionFollows depth rest) :
    SubstitutionFollows (depth + 1) ('}' :: rest) := by
  refine past 1 later (by rw [substitutionLength]; rfl) fun bytes index begins => ?_
  rw [substitutionStop_beginsAt begins, if_neg (by decide), if_neg (by decide), if_neg (by simp),
    if_neg (by simp), if_neg (by decide), if_pos rfl]
  rfl

theorem string {quote : Char} (isQuote : quote = '\'' ∨ quote = '"')
    (later : SubstitutionFollows depth (rest.drop (nestedQuotedLength quote rest))) :
    SubstitutionFollows depth (quote :: rest) := by
  have isLength : substitutionLength depth (quote :: rest) =
      substitutionLength depth (rest.drop (nestedQuotedLength quote rest)) +
        (nestedQuotedLength quote rest + 1) := by
    rcases isQuote with rfl | rfl <;> rw [substitutionLength] <;> simp [Nat.add_assoc]
  refine past (nestedQuotedLength quote rest + 1) later isLength fun bytes index begins => ?_
  have isPlain := toNat_quote_lt isQuote
  rw [substitutionStop_beginsAt begins, if_pos isQuote,
    nestedQuotedStop_eq isQuote (begins.next isPlain), byteLength_take_succ,
    utf8Size_eq_one isPlain, Nat.add_assoc]

theorem other (noTick : char ≠ '\x60') (noLine : ∀ later, char = '/' → rest = '/' :: later → False)
    (noBlock : ∀ later, char = '/' → rest = '*' :: later → False) (noOpen : char ≠ '{')
    (noClose : char ≠ '}') (noQuote : ¬ (char = '\'' ∨ char = '"'))
    (later : SubstitutionFollows depth rest) : SubstitutionFollows depth (char :: rest) := by
  have isLength : substitutionLength depth (char :: rest) = substitutionLength depth rest + 1 := by
    rw [substitutionLength.eq_8 _ _ _ noTick noLine noBlock noOpen noClose, if_neg noQuote]
  refine past 1 later isLength fun bytes index begins => ?_
  rw [substitutionStop_beginsAt begins, if_neg noQuote, if_neg noTick,
    if_neg (not_and_head?_of noLine), if_neg (not_and_head?_of noBlock), if_neg noOpen,
    if_neg noClose]
  exact begins.passes (passesHigh_substitutionStop bytes depth)

end SubstitutionFollows

/-- The bytes of a template and those of a substitution are the ones of their characters. -/
theorem templates_follow :
    (∀ text, TemplateFollows text) ∧ ∀ depth text, SubstitutionFollows depth text := by
  refine templateLength.mutual_induct TemplateFollows SubstitutionFollows .nil
    (fun hidden _ => .escape hidden) .closing (fun _ => .substitution) (fun _ _ => .other)
    (fun _ => .nil) (fun _ _ => .template) (fun _ _ => .lineComment) (fun _ _ => .blockComment)
    (fun _ _ => .openBrace) .closing (fun _ _ => .closeBrace) ?_ (fun _ _ _ => .other)
  intro depth quote rest _ _ _ _ _ isQuote
  exact .string isQuote

end

/-- **A template has the bytes of its characters.** -/
theorem templateBytes_eq (text : Text) :
    templateBytes text = Text.byteLength (text.take (templateLength text)) := by
  have stop := templates_follow.1 text text.utf8 0 (BeginsAt.start text)
  rw [Nat.zero_add] at stop
  have inside : templateStop text.utf8 0 ≤ text.byteLength := by
    have whole := congrArg Text.byteLength (List.take_append_drop (templateLength text) text)
    rw [Text.byteLength_append] at whole
    omega
  apply Text.charBoundary_eq
  rw [Nat.min_eq_left inside, stop]

end ComponentTsx.Literal
