import ComponentTsx.Proofs.Token.Bounds
import ComponentTsx.Proofs.Token.Ending

/-!
# Two readings of one string

A string is read in one way as a literal of its own and in another way inside a
substitution.  Both readings stop at the same quotes and line feeds and go past
the same escapes, but for one: behind an escaped carriage return a literal hides
one more character.  From there the readings are out of step, and what follows
decides whether they still end in one place (`endTogether`).  They always do if
no backslash stands before a carriage return (`byteLength_take_quoted_eq_iff`).
-/

namespace ComponentTsx.Literal

set_option autoImplicit false

/-! ## Escapes -/

/-- How far a reading gets that passes over the first character of a text, whatever it is. -/
def passing (length : Text → Nat) : Text → Nat
  | [] => 0
  | _ :: rest => length rest + 1

theorem nestedQuotedLength_escape (quote : Char) (text : Text) :
    nestedQuotedLength quote ('\\' :: text) = passing (nestedQuotedLength quote) text + 1 := by
  cases text with
  | nil => simp [nestedQuotedLength, passing]
  | cons hidden rest => rw [nestedQuotedLength, passing]

theorem quotedLength_escape_return (quote : Char) (text : Text) :
    quotedLength quote ('\\' :: '\r' :: text) = passing (quotedLength quote) text + 2 := by
  cases text with
  | nil => simp [quotedLength, passing]
  | cons hidden rest => rw [quotedLength, passing]

theorem quotedLength_escape {text : Text} (noReturn : text.head? ≠ some '\r') (quote : Char) :
    quotedLength quote ('\\' :: text) = passing (quotedLength quote) text + 1 := by
  cases text with
  | nil => simp [quotedLength, passing]
  | cons hidden rest =>
      have other : hidden ≠ '\r' := by simpa using noReturn
      rw [quotedLength, passing]
      exact fun _ _ same _ => other same

/-! ## Readings in and out of step -/

/-- How the reading as a literal stands to the reading inside a substitution. -/
inductive Standing where
  /-- Both come to the next character. -/
  | inStep
  /-- The literal passes over the next character, and the other reading comes to it. -/
  | ahead
  /-- The literal comes to the next character, and the other reading passes over it. -/
  | behind
deriving DecidableEq, Repr

/-- How far the reading as a literal gets. -/
def Standing.literalLength (quote : Char) (text : Text) : Standing → Nat
  | ahead => passing (quotedLength quote) text
  | inStep | behind => quotedLength quote text

/-- How far the reading inside a substitution gets. -/
def Standing.nestedLength (quote : Char) (text : Text) : Standing → Nat
  | behind => passing (nestedQuotedLength quote) text
  | inStep | ahead => nestedQuotedLength quote text

/--
Whether both readings end in one place.  Readings in step get out of step at an escaped carriage
return.  If they are out of step, a backslash is an escape for one of them only, so that they change
parts; they do not end together at a line feed, nor at a quote unless the line or the text ends
there; at any other character they are in step again.
-/
def endTogether (quote : Char) : Standing → Text → Bool
  | _, [] => true
  | .inStep, '\\' :: '\r' :: rest => endTogether quote .ahead rest
  | .inStep, '\\' :: _ :: rest => endTogether quote .inStep rest
  | .ahead, '\\' :: rest => endTogether quote .behind rest
  | .behind, '\\' :: '\r' :: rest => endTogether quote .ahead rest
  | .behind, '\\' :: rest => endTogether quote .ahead rest
  | .inStep, char :: rest => char = '\n' || char = quote || endTogether quote .inStep rest
  | _, char :: rest =>
      if char = '\n' then false
      else if char = quote then rest = [] || rest.head? = some '\n'
      else endTogether quote .inStep rest

example : endTogether '"' .inStep "a\\\nb\"c".toList = true := by decide
example : endTogether '"' .inStep "a\\\rb\"c".toList = true := by decide
example : endTogether '"' .inStep "a\\\r\nb\"c".toList = false := by decide
example : endTogether '"' .inStep "a\\\r\\\"b\"c".toList = false := by decide

theorem length_eq_zero_iff {length : Text → Nat} (none : length [] = 0)
    (stops : ∀ first rest, length (first :: rest) = 0 ↔ first = '\n') (text : Text) :
    length text = 0 ↔ text = [] ∨ text.head? = some '\n' := by
  cases text with
  | nil => simp [none]
  | cons first rest => simp [stops]

theorem quotedLength_eq_zero_iff (quote : Char) (text : Text) :
    quotedLength quote text = 0 ↔ text = [] ∨ text.head? = some '\n' := by
  refine length_eq_zero_iff rfl (fun first rest => ⟨quotedLength_eq_zero, ?_⟩) text
  rintro rfl
  simp [quotedLength]

theorem nestedQuotedLength_eq_zero_iff (quote : Char) (text : Text) :
    nestedQuotedLength quote text = 0 ↔ text = [] ∨ text.head? = some '\n' := by
  refine length_eq_zero_iff rfl (fun first rest => ⟨nestedQuotedLength_eq_zero, ?_⟩) text
  rintro rfl
  simp [nestedQuotedLength]

theorem endTogether_iff {quote : Char} (isQuote : quote = '\'' ∨ quote = '"') (standing : Standing)
    (text : Text) :
    endTogether quote standing text = true ↔
      standing.literalLength quote text = standing.nestedLength quote text := by
  have noReturn : '\r' ≠ quote := by
    rcases isQuote with rfl | rfl <;> decide
  have noEscape : quote ≠ '\\' := by
    rcases isQuote with rfl | rfl <;> decide
  fun_induction endTogether quote standing text with
  | case1 standing =>
      cases standing <;>
        simp [Standing.literalLength, Standing.nestedLength, passing, quotedLength,
          nestedQuotedLength]
  | case2 rest ih =>
      refine ih.trans ?_
      simp only [Standing.literalLength, Standing.nestedLength, quotedLength_escape_return,
        nestedQuotedLength_escape, passing]
      omega
  | case3 hidden rest other ih =>
      have notReturn : (hidden :: rest).head? ≠ some '\r' := by simpa using other
      refine ih.trans ?_
      simp only [Standing.literalLength, Standing.nestedLength, quotedLength_escape notReturn,
        nestedQuotedLength_escape, passing]
      omega
  | case4 rest ih =>
      refine ih.trans ?_
      simp only [Standing.literalLength, Standing.nestedLength, nestedQuotedLength_escape, passing]
      omega
  | case5 rest ih =>
      have isRead :
          nestedQuotedLength quote ('\r' :: rest) = nestedQuotedLength quote rest + 1 := by
        rw [nestedQuotedLength_char (by decide) (by decide), if_neg noReturn]
      refine ih.trans ?_
      simp only [Standing.literalLength, Standing.nestedLength, quotedLength_escape_return, passing,
        isRead]
      omega
  | case6 rest other ih =>
      have notReturn : rest.head? ≠ some '\r' := by
        intro isReturn
        obtain ⟨tail, isTail⟩ := List.head?_eq_some_iff.mp isReturn
        exact other tail isTail
      refine ih.trans ?_
      simp only [Standing.literalLength, Standing.nestedLength, quotedLength_escape notReturn,
        passing]
      omega
  | case7 char rest _ noHidden ih =>
      simp only [Standing.literalLength, Standing.nestedLength] at ih ⊢
      by_cases isEscape : char = '\\'
      · -- Nothing is left for the backslash to hide.
        cases rest with
        | nil => simp [isEscape, endTogether, quotedLength, nestedQuotedLength]
        | cons hidden rest => exact (noHidden hidden rest isEscape rfl).elim
      by_cases isBreak : char = '\n'
      · simp [isBreak, quotedLength, nestedQuotedLength]
      rw [quotedLength_char isEscape isBreak, nestedQuotedLength_char isEscape isBreak]
      by_cases closes : char = quote
      · simp [closes]
      · simp [closes, isBreak, ih]
  | case8 standing rest outOfStep =>
      cases standing with
      | inStep => exact (outOfStep rfl).elim
      | ahead => simp [Standing.literalLength, Standing.nestedLength, passing, nestedQuotedLength]
      | behind => simp [Standing.literalLength, Standing.nestedLength, passing, quotedLength]
  | case9 standing rest outOfStep _ _ _ _ _ noBreak =>
      have literal : quotedLength quote (quote :: rest) = 1 := by
        rw [quotedLength_char noEscape noBreak, if_pos rfl]
      have nested : nestedQuotedLength quote (quote :: rest) = 1 := by
        rw [nestedQuotedLength_char noEscape noBreak, if_pos rfl]
      rw [Bool.or_eq_true, decide_eq_true_eq, decide_eq_true_eq]
      cases standing with
      | inStep => exact (outOfStep rfl).elim
      | ahead =>
          rw [← quotedLength_eq_zero_iff quote]
          simp [Standing.literalLength, Standing.nestedLength, passing, nested]
      | behind =>
          rw [← nestedQuotedLength_eq_zero_iff quote]
          simp [Standing.literalLength, Standing.nestedLength, passing, literal, eq_comm]
  | case10 standing char rest _ _ aheadChar _ behindChar outOfStep noBreak noQuote ih =>
      refine ih.trans ?_
      cases standing with
      | inStep => exact (outOfStep rfl).elim
      | ahead =>
          have nested : nestedQuotedLength quote (char :: rest) =
              nestedQuotedLength quote rest + 1 := by
            rw [nestedQuotedLength_char (aheadChar rfl) noBreak, if_neg noQuote]
          simp [Standing.literalLength, Standing.nestedLength, passing, nested]
      | behind =>
          have literal : quotedLength quote (char :: rest) = quotedLength quote rest + 1 := by
            rw [quotedLength_char (behindChar rfl) noBreak, if_neg noQuote]
          simp [Standing.literalLength, Standing.nestedLength, passing, literal]

/-- Readings in step stay so where no carriage return is escaped. -/
theorem endTogether_of_noReturn {quote : Char} {standing : Standing} {text : Text}
    (inStep : standing = .inStep) (noReturn : ¬ ['\\', '\r'] <:+: text) :
    endTogether quote standing text := by
  fun_induction endTogether quote standing text with
  | case1 => rfl
  | case2 rest => exact absurd ⟨[], rest, rfl⟩ noReturn
  | case3 hidden rest _ ih =>
      apply ih rfl
      intro later
      exact noReturn (later.trans (List.suffix_append ['\\', hidden] rest).isInfix)
  | case4 | case5 | case6 => cases inStep
  | case7 char rest _ _ ih =>
      rw [Bool.or_eq_true]
      refine .inr (ih rfl ?_)
      intro later
      exact noReturn (later.trans (List.suffix_cons char rest).isInfix)
  | case8 _ _ outOfStep | case9 _ _ outOfStep => exact (outOfStep inStep).elim
  | case10 _ _ _ _ _ _ _ _ outOfStep => exact (outOfStep inStep).elim

/-! ## Bytes -/

/-- Parts of one text with the same number of bytes have the same number of characters. -/
theorem byteLength_take_inj {text : Text} {first second : Nat} (firstLe : first ≤ text.length)
    (secondLe : second ≤ text.length) :
    Text.byteLength (text.take first) = Text.byteLength (text.take second) ↔ first = second := by
  constructor
  · intro same
    have whole : text.take first ++ text.drop first = text.take second ++ text.drop second := by
      rw [List.take_append_drop, List.take_append_drop]
    have taken := congrArg List.length (Text.append_inj_of_byteLength whole same).1
    rwa [List.length_take_of_le firstLe, List.length_take_of_le secondLe] at taken
  · rintro rfl
    rfl

/--
**Both readings take the same bytes of a text exactly if they end together.**  In particular they do
so if no carriage return of the text has a backslash before it.
-/
theorem byteLength_take_quoted_eq_iff {quote : Char} (isQuote : quote = '\'' ∨ quote = '"')
    (text : Text) :
    (Text.byteLength (text.take (quotedLength quote text)) =
        Text.byteLength (text.take (nestedQuotedLength quote text)) ↔
      endTogether quote .inStep text) ∧
    (¬ ['\\', '\r'] <:+: text →
      Text.byteLength (text.take (quotedLength quote text)) =
        Text.byteLength (text.take (nestedQuotedLength quote text))) := by
  have ends : Text.byteLength (text.take (quotedLength quote text)) =
      Text.byteLength (text.take (nestedQuotedLength quote text)) ↔
        endTogether quote .inStep text := by
    rw [byteLength_take_inj (quotedLength_le quote text) (nestedQuotedLength_le quote text),
      endTogether_iff isQuote]
    rfl
  exact ⟨ends, fun noReturn => ends.mpr (endTogether_of_noReturn rfl noReturn)⟩

/--
A line feed and a quote are hidden from both readings; behind an escaped carriage return, a quote is
hidden from one only.
-/
theorem byteLength_take_quoted_eq_iff_hidden :
    let hidden : Text := "é\\\n\\\"b\" + c".toList
    let exchanged : Text := "\\\r\\\"\" + c".toList
    ¬ ['\\', '\r'] <:+: hidden ∧
      Text.byteLength (hidden.take (quotedLength '"' hidden)) =
        Text.byteLength (hidden.take (nestedQuotedLength '"' hidden)) ∧
      endTogether '"' .inStep exchanged = false ∧
      Text.byteLength (exchanged.take (quotedLength '"' exchanged)) ≠
        Text.byteLength (exchanged.take (nestedQuotedLength '"' exchanged)) := by
  intro hidden exchanged
  have isQuote : '"' = '\'' ∨ '"' = '"' := .inr rfl
  have noReturn : ¬ ['\\', '\r'] <:+: hidden := by decide +kernel
  have apart : endTogether '"' .inStep exchanged = false := by decide +kernel
  refine ⟨noReturn, (byteLength_take_quoted_eq_iff isQuote hidden).2 noReturn, apart, ?_⟩
  intro same
  have together := (byteLength_take_quoted_eq_iff isQuote exchanged).1.mp same
  exact Bool.false_ne_true (apart.symm.trans together)

/--
An escaped line break of two characters is hidden in a literal, which ends with its quote.  Inside a
substitution the string ends before the line feed.
-/
theorem byteLength_take_quoted_ne_lineBreak :
    let text : Text := "\\\r\n\x60'".toList
    Text.byteLength (text.take (quotedLength '\'' text)) ≠
      Text.byteLength (text.take (nestedQuotedLength '\'' text)) := by
  decide +kernel

end ComponentTsx.Literal
