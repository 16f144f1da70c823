import ComponentTsx.Proofs.Token.Bounds
import Mathlib.Data.List.TakeWhile

/-!
# Lengths that no later text changes

A token that ends before a place is found without looking past it.  What stands
there may be another character with another text after it, as long as the
character ends tokens as well (`EndsAlike`, `EndsFor`); the token stays the same
(`readToken_endsAlike`).  Only a slash looks further, as far as its line goes.
-/

namespace ComponentTsx

set_option autoImplicit false

namespace Literal

/--
A length that ends before a character or earlier is the same with another character in its place,
whatever follows.
-/
def EndsAlike (length : Text → Nat) (first second : Char) : Prop :=
  ∀ text more other, length (text ++ first :: more) ≤ text.length →
    length (text ++ second :: other) = length (text ++ first :: more)

/-- A length made of a part and a length after it ends alike if both do. -/
theorem EndsAlike.passOver {part later : Text → Nat} {first second : Char}
    (partAlike : EndsAlike part first second) (laterAlike : EndsAlike later first second) :
    EndsAlike (fun text => later (text.drop (part text)) + part text) first second := by
  intro text more other ends
  have inside : part (text ++ first :: more) ≤ text.length := Nat.le_of_add_left_le ends
  have samePart := partAlike text more other inside
  simp only [samePart, List.drop_append_of_le_length inside] at ends ⊢
  rw [laterAlike]
  rw [List.length_drop]
  exact Nat.le_sub_of_add_le ends

/-! ## Strings and comments -/

theorem takeWhile_append_cons {condition : Char → Bool} {stop : Char} (fails : ¬ condition stop)
    (text more : Text) : (text ++ stop :: more).takeWhile condition = text.takeWhile condition := by
  induction text with
  | nil => exact List.takeWhile_cons_of_neg fails
  | cons char rest ih => rw [List.cons_append, List.takeWhile_cons, List.takeWhile_cons, ih]

theorem endsAlike_takeWhile {condition : Char → Bool} {first second : Char}
    (stays : condition second → condition first) :
    EndsAlike (fun text => (text.takeWhile condition).length) first second := by
  intro text more other ends
  induction text with
  | nil =>
      have stops : ¬ condition first := fun goesOn => by simp [goesOn] at ends
      simp [stops, mt stays stops]
  | cons char rest ih =>
      by_cases goesOn : condition char
      · simp_all
      · simp [goesOn]

theorem endsAlike_lineComment {first second : Char} (line : first = '\n' → second = '\n') :
    EndsAlike lineCommentLength first second :=
  endsAlike_takeWhile (by simpa using mt line)

theorem blockCommentLength_pos (first : Char) (rest : Text) :
    0 < blockCommentLength (first :: rest) := by
  unfold blockCommentLength
  split <;> simp_all

theorem endsAlike_blockComment (first second : Char) :
    EndsAlike blockCommentLength first second := by
  intro text more other ends
  fun_induction blockCommentLength text with
  | case1 => exact absurd ends (Nat.not_le_of_lt (blockCommentLength_pos first more))
  | case2 rest => simp [blockCommentLength]
  | case3 char rest noEnd ih =>
      cases rest with
      | nil =>
          -- The end would lie past the text: `*/` needs a second character.
          have long : 1 < blockCommentLength (char :: first :: more) := by
            have := blockCommentLength_pos first more
            unfold blockCommentLength
            split <;> simp_all
          exact absurd ends (Nat.not_le_of_lt long)
      | cons next rest =>
          have step (later : Text) : blockCommentLength (char :: next :: rest ++ later) =
              blockCommentLength (next :: rest ++ later) + 1 := by
            rw [List.cons_append, blockCommentLength]
            simpa using noEnd
          rw [step] at ends
          rw [step, step, ih (Nat.le_of_succ_le_succ ends)]

/-- A string body takes no character only at a line feed. -/
theorem quotedLength_eq_zero {quote first : Char} {rest : Text}
    (none : quotedLength quote (first :: rest) = 0) : first = '\n' := by
  unfold quotedLength at none
  split at none <;> simp_all
  split at none <;> simp_all

theorem nestedQuotedLength_eq_zero {quote first : Char} {rest : Text}
    (none : nestedQuotedLength quote (first :: rest) = 0) : first = '\n' := by
  unfold nestedQuotedLength at none
  split at none <;> simp_all
  split at none <;> simp_all

theorem quotedLength_char {quote char : Char} (noEscape : char ≠ '\\') (noBreak : char ≠ '\n')
    (rest : Text) :
    quotedLength quote (char :: rest) =
      if char = quote then 1 else quotedLength quote rest + 1 := by
  rw [quotedLength] <;> simp_all

theorem nestedQuotedLength_char {quote char : Char} (noEscape : char ≠ '\\') (noBreak : char ≠ '\n')
    (rest : Text) :
    nestedQuotedLength quote (char :: rest) =
      if char = quote then 1 else nestedQuotedLength quote rest + 1 := by
  rw [nestedQuotedLength] <;> simp_all

/-- An escape takes two characters at least. -/
theorem one_lt_quotedLength_escape (quote hidden : Char) (rest : Text) :
    1 < quotedLength quote ('\\' :: hidden :: rest) := by
  by_cases isReturn : hidden = '\r'
  · cases rest <;> simp [isReturn, quotedLength]
  · rw [quotedLength]
    · exact Nat.lt_add_left _ (Nat.lt_succ_self 1)
    · exact fun _ _ same _ => isReturn same

theorem endsAlike_quoted (quote : Char) {first second : Char}
    (line : first = '\n' → second = '\n') : EndsAlike (quotedLength quote) first second := by
  intro text more other ends
  fun_induction quotedLength quote text with
  | case1 =>
      have isBreak := quotedLength_eq_zero (Nat.le_zero.mp ends)
      simp [isBreak, line isBreak, quotedLength]
  | case2 hidden rest ih =>
      simp only [List.cons_append, quotedLength] at ends ⊢
      rw [ih (Nat.le_of_add_le_add_right ends)]
  | case3 hidden rest noReturn ih =>
      have step (next : Char) (later : Text) (short : ¬ (hidden = '\r' ∧ rest = [])) :
          quotedLength quote ('\\' :: hidden :: rest ++ next :: later) =
            quotedLength quote (rest ++ next :: later) + 2 := by
        rw [List.cons_append, List.cons_append, quotedLength]
        cases rest <;> simp_all
      by_cases long : hidden = '\r' ∧ rest = []
      · obtain ⟨rfl, rfl⟩ := long
        simp [quotedLength] at ends
      · rw [step _ _ long] at ends
        rw [step _ _ long, step _ _ long, ih (Nat.le_of_add_le_add_right ends)]
  | case4 rest => simp [quotedLength]
  | case5 rest noReturn noEscape noBreak =>
      by_cases isEscape : quote = '\\'
      · cases rest with
        | nil => exact absurd ends (Nat.not_le_of_lt (isEscape ▸ one_lt_quotedLength_escape _ _ _))
        | cons hidden rest => exact absurd rfl (noEscape hidden rest isEscape)
      · simp [quotedLength_char isEscape noBreak]
  | case6 char rest noReturn noEscape noBreak noQuote ih =>
      by_cases isEscape : char = '\\'
      · subst isEscape
        cases rest with
        | nil => exact absurd ends (Nat.not_le_of_lt (one_lt_quotedLength_escape _ _ _))
        | cons hidden rest => exact absurd rfl (noEscape hidden rest rfl)
      · rw [List.cons_append, List.cons_append, quotedLength_char isEscape noBreak,
          quotedLength_char isEscape noBreak, if_neg noQuote, if_neg noQuote] at *
        rw [ih (Nat.le_of_succ_le_succ ends)]

theorem one_lt_nestedQuotedLength_escape (quote hidden : Char) (rest : Text) :
    1 < nestedQuotedLength quote ('\\' :: hidden :: rest) := by
  rw [nestedQuotedLength]
  exact Nat.lt_add_left _ (Nat.lt_succ_self 1)

theorem endsAlike_nestedQuoted (quote : Char) {first second : Char}
    (line : first = '\n' → second = '\n') : EndsAlike (nestedQuotedLength quote) first second := by
  intro text more other ends
  fun_induction nestedQuotedLength quote text with
  | case1 =>
      have isBreak := nestedQuotedLength_eq_zero (Nat.le_zero.mp ends)
      simp [isBreak, line isBreak, nestedQuotedLength]
  | case2 hidden rest ih =>
      simp only [List.cons_append, nestedQuotedLength] at ends ⊢
      rw [ih (Nat.le_of_add_le_add_right ends)]
  | case3 rest => simp [nestedQuotedLength]
  | case4 rest noEscape noBreak =>
      by_cases isEscape : quote = '\\'
      · cases rest with
        | nil =>
            exact absurd ends
              (Nat.not_le_of_lt (isEscape ▸ one_lt_nestedQuotedLength_escape _ _ _))
        | cons hidden rest => exact absurd rfl (noEscape hidden rest isEscape)
      · simp [nestedQuotedLength_char isEscape noBreak]
  | case5 char rest noEscape noBreak noQuote ih =>
      by_cases isEscape : char = '\\'
      · subst isEscape
        cases rest with
        | nil => exact absurd ends (Nat.not_le_of_lt (one_lt_nestedQuotedLength_escape _ _ _))
        | cons hidden rest => exact absurd rfl (noEscape hidden rest rfl)
      · rw [List.cons_append, List.cons_append, nestedQuotedLength_char isEscape noBreak,
          nestedQuotedLength_char isEscape noBreak, if_neg noQuote, if_neg noQuote] at *
        rw [ih (Nat.le_of_succ_le_succ ends)]

/-! ## Templates -/

namespace Enclosure

/-- Only whether a brace comes next matters for what an enclosure becomes. -/
theorem after_congr (enclosure : Enclosure) (first : Char) {rest other : Text}
    (same : rest.head? = some '{' ↔ other.head? = some '{') :
    enclosure.after first rest = enclosure.after first other := by
  cases enclosure <;> simp only [after, same]

/-- A character that closes its enclosure does so alone, whatever follows. -/
theorem of_after_eq_nil {enclosure : Enclosure} {first : Char} {rest : Text}
    (closes : enclosure.after first rest = []) (other : Text) :
    enclosure.after first other = [] ∧ enclosure.passed first other = 0 := by
  cases enclosure with
  | template =>
      have isEnd : first = '\x60' := by
        unfold after at closes
        split at closes <;> simp_all
        split at closes <;> simp_all
      subst isEnd
      simp [after, passed]
  | substitution depth =>
      have noTemplate : first ≠ '\x60' := by
        rintro rfl
        simp [after] at closes
      have noOpen : first ≠ '{' := by
        rintro rfl
        simp [after] at closes
      by_cases isEnd : first = '}'
      · subst isEnd
        cases depth with
        | zero => simp [after, passed]
        | succ depth => simp [after] at closes
      · rw [after_substitution_char noTemplate noOpen isEnd] at closes
        cases closes

/-- What is passed over after a character and one more ends alike. -/
theorem passed_append (enclosure : Enclosure) (char next : Char) {first second : Char} {rest : Text}
    (line : first = '\n' → second = '\n') (more other : Text)
    (ends : enclosure.passed char (next :: rest ++ first :: more) ≤ (next :: rest).length) :
    enclosure.passed char (next :: rest ++ second :: other) =
      enclosure.passed char (next :: rest ++ first :: more) := by
  cases enclosure with
  | template => simp [passed]
  | substitution depth =>
      rw [List.cons_append, passed_substitution_cons] at ends
      rw [List.cons_append, List.cons_append, passed_substitution_cons, passed_substitution_cons]
      by_cases isQuote : char = '\'' ∨ char = '"'
      · rw [if_pos isQuote] at ends
        rw [if_pos isQuote, if_pos isQuote]
        exact endsAlike_nestedQuoted char line (next :: rest) more other ends
      rw [if_neg isQuote] at ends
      rw [if_neg isQuote, if_neg isQuote]
      by_cases isLine : char = '/' ∧ next = '/'
      · rw [if_pos isLine] at ends
        rw [if_pos isLine, if_pos isLine,
          endsAlike_lineComment line rest more other (Nat.le_of_succ_le_succ ends)]
      rw [if_neg isLine] at ends
      rw [if_neg isLine, if_neg isLine]
      by_cases isBlock : char = '/' ∧ next = '*'
      · rw [if_pos isBlock] at ends
        rw [if_pos isBlock, if_pos isBlock,
          endsAlike_blockComment first second rest more other (Nat.le_of_succ_le_succ ends)]
      · rw [if_neg isBlock, if_neg isBlock]

end Enclosure

theorem eq_nil_of_enclosedLength_eq_zero {stack : List Enclosure} {first : Char} {rest : Text}
    (none : enclosedLength stack (first :: rest) = 0) : stack = [] := by
  cases stack with
  | nil => rfl
  | cons enclosure outer =>
      exact absurd none (Nat.ne_of_gt (enclosedLength_pos enclosure outer first rest))

/-- What is open is closed, if at all, before any place that it ends by. -/
theorem endsAlike_enclosed (stack : List Enclosure) {first second : Char}
    (line : first = '\n' → second = '\n') : EndsAlike (enclosedLength stack) first second := by
  intro text more other ends
  induction size : text.length using Nat.strongRecOn generalizing stack text with
  | ind size ih =>
  subst size
  match stack, text with
  | [], _ => simp
  | enclosure :: outer, [] =>
      exact absurd ends (Nat.not_le_of_lt (enclosedLength_pos enclosure outer first more))
  | enclosure :: outer, [char] =>
      -- Nothing may stay open before the next character, so this one closes the last enclosure.
      rw [List.singleton_append, enclosedLength_cons] at ends
      have alone : enclosure.passed char (first :: more) = 0 :=
        Nat.le_zero.mp (Nat.le_of_add_left_le (Nat.le_of_succ_le_succ ends))
      rw [alone, List.drop_zero] at ends
      have closed := eq_nil_of_enclosedLength_eq_zero (Nat.le_zero.mp (Nat.le_of_succ_le_succ ends))
      obtain ⟨closes, rfl⟩ := List.append_eq_nil_iff.mp closed
      have always := Enclosure.of_after_eq_nil closes
      simp [enclosedLength_cons, always]
  | enclosure :: outer, char :: next :: rest =>
      have step (later : Text) :
          enclosedLength (enclosure :: outer) (char :: next :: rest ++ later) =
          enclosedLength (enclosure.after char (next :: rest) ++ outer)
            ((next :: rest ++ later).drop (enclosure.passed char (next :: rest ++ later))) +
              enclosure.passed char (next :: rest ++ later) + 1 := by
        have head : enclosure.after char (next :: (rest ++ later)) =
            enclosure.after char (next :: rest) := enclosure.after_congr char .rfl
        rw [List.cons_append, enclosedLength_cons, List.cons_append, head]
      rw [step] at ends
      have inside := Nat.le_of_add_left_le (Nat.le_of_succ_le_succ ends)
      rw [step, step, enclosure.passed_append char next line more other inside]
      rw [List.drop_append_of_le_length inside] at ends ⊢
      rw [List.drop_append_of_le_length inside,
        ih _ (length_drop_lt _ (next :: rest) 0) _ _ ?_ rfl]
      rw [List.length_drop]
      exact Nat.le_sub_of_add_le (Nat.le_of_succ_le_succ ends)

theorem endsAlike_template {first second : Char} (line : first = '\n' → second = '\n') :
    EndsAlike templateLength first second := by
  have alike := endsAlike_enclosed [.template] line
  simp only [EndsAlike, ← templateLength_eq] at alike
  exact alike

end Literal

/-! ## One token -/

/-- A character that ends every token which another one ends. -/
structure EndsFor (second first : Char) : Prop where
  line : first = '\n' → second = '\n'
  identifier : continuesIdentifier second → continuesIdentifier first
  number : continuesNumber second → continuesNumber first
  /-- The characters that a token may take after a first one. -/
  mark : ∀ mark ∈ ['.', '>', '/', '*'], second = mark → first = mark

theorem EndsFor.refl (char : Char) : EndsFor char char :=
  ⟨id, id, id, fun _ _ => id⟩

/-- The characters of a number's point and of what follows it. -/
def fractionLength : Text → Nat
  | '.' :: rest => (rest.takeWhile continuesNumber).length + 1
  | _ => 0

theorem numberLength_eq (text : Text) :
    numberLength text =
      fractionLength (text.drop (text.takeWhile continuesNumber).length) +
        (text.takeWhile continuesNumber).length := by
  unfold numberLength
  simp only
  generalize text.drop (text.takeWhile continuesNumber).length = after
  match after with
  | [] => exact (Nat.zero_add _).symm
  | char :: rest =>
      by_cases isPoint : char = '.'
      · subst isPoint
        simp only [fractionLength]
        omega
      · simp [fractionLength, isPoint]

theorem fractionLength_of_ne {char : Char} (noPoint : char ≠ '.') (rest : Text) :
    fractionLength (char :: rest) = 0 := by
  simp [fractionLength, noPoint]

theorem endsAlike_fraction {first second : Char} (endsFor : EndsFor second first) :
    Literal.EndsAlike fractionLength first second := by
  intro text more other ends
  cases text with
  | nil =>
      have different : first ≠ '.' := by
        rintro rfl
        simp [fractionLength] at ends
      rw [List.nil_append, List.nil_append, fractionLength_of_ne different,
        fractionLength_of_ne (mt (endsFor.mark '.' (by simp)) different)]
  | cons char rest =>
      by_cases isPoint : char = '.'
      · subst isPoint
        exact congrArg (· + 1) (Literal.endsAlike_takeWhile endsFor.number rest more other
          (Nat.le_of_succ_le_succ ends))
      · rw [List.cons_append, List.cons_append, fractionLength_of_ne isPoint,
          fractionLength_of_ne isPoint]

theorem endsAlike_number {first second : Char} (endsFor : EndsFor second first) :
    Literal.EndsAlike numberLength first second := by
  have alike := (Literal.endsAlike_takeWhile endsFor.number).passOver (endsAlike_fraction endsFor)
  simp only [Literal.EndsAlike, ← numberLength_eq] at alike
  exact alike

/-- What a slash begins that begins no comment. -/
theorem readSlash_of_noComment {operandExpected : Bool} {rest : Text}
    (noLine : rest.head? ≠ some '/') (noBlock : rest.head? ≠ some '*') :
    readSlash operandExpected rest =
      match (if operandExpected then Literal.regexLength? false rest else none) with
      | some length => (.regex, length)
      | none => (.slash, 0) := by
  unfold readSlash
  split
  · exact absurd rfl noLine
  · exact absurd rfl noBlock
  · rfl

/-- Whether a slash before a text may begin a regular expression: it begins no comment. -/
structure MayBeginRegex (operandExpected : Bool) (rest : Text) : Prop where
  expected : operandExpected = true
  noLine : rest.head? ≠ some '/'
  noBlock : rest.head? ≠ some '*'

/--
A token that begins with a slash ends alike if a regular expression does that the slash may begin.
-/
theorem readSlash_endsAlike {first second : Char} (endsFor : EndsFor second first)
    {operandExpected : Bool} {rest more other : Text}
    (regex : MayBeginRegex operandExpected (rest ++ first :: more) →
      (Literal.regexLength? false (rest ++ first :: more)).getD 0 ≤ rest.length →
        Literal.regexLength? false (rest ++ second :: other) =
          Literal.regexLength? false (rest ++ first :: more))
    (ends : (readSlash operandExpected (rest ++ first :: more)).2 ≤ rest.length) :
    readSlash operandExpected (rest ++ second :: other) =
      readSlash operandExpected (rest ++ first :: more) := by
  by_cases isLine : (rest ++ first :: more).head? = some '/'
  · cases rest with
    | nil =>
        cases isLine
        exact absurd ends (Nat.not_succ_le_zero _)
    | cons char rest =>
        cases isLine
        simp only [List.cons_append, readSlash, List.length_cons, Nat.add_le_add_iff_right]
          at ends ⊢
        rw [Literal.endsAlike_lineComment endsFor.line rest more other ends]
  by_cases isBlock : (rest ++ first :: more).head? = some '*'
  · cases rest with
    | nil =>
        cases isBlock
        exact absurd ends (Nat.not_succ_le_zero _)
    | cons char rest =>
        cases isBlock
        simp only [List.cons_append, readSlash, List.length_cons, Nat.add_le_add_iff_right]
          at ends ⊢
        rw [Literal.endsAlike_blockComment first second rest more other ends]
  have kept (mark : Char) (isMark : mark ∈ ['.', '>', '/', '*'])
      (absent : (rest ++ first :: more).head? ≠ some mark) :
      (rest ++ second :: other).head? ≠ some mark := by
    cases rest with
    | nil => simpa using mt (endsFor.mark mark isMark) (by simpa using absent)
    | cons char rest => simpa using absent
  rw [readSlash_of_noComment isLine isBlock] at ends
  rw [readSlash_of_noComment isLine isBlock,
    readSlash_of_noComment (kept '/' (by simp) isLine) (kept '*' (by simp) isBlock)]
  cases operandExpected with
  | false => rfl
  | true =>
      rw [if_pos rfl] at ends
      rw [if_pos rfl, if_pos rfl, regex ⟨rfl, isLine, isBlock⟩]
      cases read : Literal.regexLength? false (rest ++ first :: more) with
      | none => exact Nat.zero_le _
      | some length =>
          rw [read] at ends
          exact ends

/-- **A token that ends before a character or earlier stays the same with another one there.** -/
theorem readToken_endsAlike {first second : Char} (endsFor : EndsFor second first)
    {operandExpected : Bool} {char : Char} {rest more other : Text}
    (regex : char = '/' → MayBeginRegex operandExpected (rest ++ first :: more) →
      (Literal.regexLength? false (rest ++ first :: more)).getD 0 ≤ rest.length →
        Literal.regexLength? false (rest ++ second :: other) =
          Literal.regexLength? false (rest ++ first :: more))
    (ends : (readToken operandExpected char (rest ++ first :: more)).2 ≤ rest.length) :
    readToken operandExpected char (rest ++ second :: other) =
      readToken operandExpected char (rest ++ first :: more) := by
  cases readsBy char with
  | slash isSlash reads =>
      rw [reads] at ends ⊢
      rw [reads, readSlash_endsAlike endsFor (regex isSlash) ends]
  | equals _ reads =>
      rw [reads] at ends
      rw [reads, reads]
      cases rest with
      | nil =>
          by_cases isArrow : first = '>'
          · subst isArrow
            exact absurd ends (Nat.not_succ_le_zero 0)
          · simp [isArrow, mt (endsFor.mark '>' (by simp)) isArrow]
      | cons next rest => rfl
  | string _ reads =>
      rw [reads] at ends
      rw [reads, reads, Literal.endsAlike_quoted char endsFor.line rest more other ends]
  | template _ reads =>
      rw [reads] at ends
      rw [reads, reads, Literal.endsAlike_template endsFor.line rest more other ends]
  | identifier _ reads =>
      rw [reads] at ends
      rw [reads, reads]
      exact congrArg (TokenKind.identifier, ·)
        (Literal.endsAlike_takeWhile endsFor.identifier rest more other ends)
  | number _ reads =>
      rw [reads] at ends
      rw [reads, reads, endsAlike_number endsFor rest more other ends]
  | single kind _ reads => rw [reads, reads]

end ComponentTsx
