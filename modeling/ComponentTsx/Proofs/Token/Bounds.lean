import ComponentTsx.Proofs.Token.Enclosure
import ComponentTsx.Token.Lexer

/-!
# Lengths within their text

A reader of tokens steps over escapes, strings and comments by more than one
character at a time, and over templates by as much as they enclose.  Which of
the lengths it takes is settled by the first character (`readsBy`), and none of
them leads past the end of the text, however a token is left open
(`length_readToken_le`).
-/

namespace ComponentTsx

set_option autoImplicit false

namespace Literal

theorem blockCommentLength_le (text : Text) : blockCommentLength text ≤ text.length := by
  fun_induction blockCommentLength text with
  | case1 => exact Nat.le_refl _
  | case2 rest => exact Nat.le_add_left 2 rest.length
  | case3 char rest noEnd ih => exact Nat.succ_le_succ ih

theorem lineCommentLength_le (text : Text) : lineCommentLength text ≤ text.length :=
  (List.takeWhile_sublist _).length_le

theorem quotedLength_le (quote : Char) (text : Text) : quotedLength quote text ≤ text.length := by
  fun_induction quotedLength quote text with
  | case1 => exact Nat.le_refl _
  | case2 hidden rest ih => exact Nat.add_le_add_right ih 3
  | case3 hidden rest noReturn ih => exact Nat.add_le_add_right ih 2
  | case4 rest => exact Nat.zero_le _
  | case5 rest => exact Nat.succ_le_succ (Nat.zero_le _)
  | case6 char rest noReturn noEscape noBreak noQuote ih => exact Nat.succ_le_succ ih

theorem nestedQuotedLength_le (quote : Char) (text : Text) :
    nestedQuotedLength quote text ≤ text.length := by
  fun_induction nestedQuotedLength quote text with
  | case1 => exact Nat.le_refl _
  | case2 hidden rest ih => exact Nat.add_le_add_right ih 2
  | case3 rest => exact Nat.zero_le _
  | case4 rest => exact Nat.succ_le_succ (Nat.zero_le _)
  | case5 char rest noEscape noBreak noQuote ih => exact Nat.succ_le_succ ih

theorem Enclosure.passed_le (enclosure : Enclosure) (first : Char) (rest : Text) :
    enclosure.passed first rest ≤ rest.length := by
  cases rest with
  | nil =>
      cases enclosure with
      | template => simp [passed]
      | substitution depth =>
          have none := nestedQuotedLength_le first []
          simpa [passed] using fun _ => Nat.le_zero.mp none
  | cons next rest =>
      cases enclosure with
      | template =>
          simp only [passed]
          split
          · exact Nat.min_le_right _ _
          · exact Nat.zero_le _
      | substitution depth =>
          rw [passed_substitution_cons]
          split
          · exact nestedQuotedLength_le first (next :: rest)
          · split
            · exact Nat.succ_le_succ (lineCommentLength_le rest)
            · split
              · exact Nat.succ_le_succ (blockCommentLength_le rest)
              · exact Nat.zero_le _

theorem enclosedLength_le (stack : List Enclosure) (text : Text) :
    enclosedLength stack text ≤ text.length := by
  fun_induction enclosedLength stack text with
  | case1 => exact Nat.zero_le _
  | case2 => exact Nat.le_refl _
  | case3 enclosure outer first rest length ih =>
      have inside : length ≤ rest.length := enclosure.passed_le first rest
      rw [List.length_drop] at ih
      rw [List.length_cons]
      omega

theorem templateLength_le (text : Text) : templateLength text ≤ text.length := by
  rw [templateLength_eq]
  exact enclosedLength_le _ _

theorem regexLength?_le (inClass : Bool) (text : Text) :
    ∀ length, regexLength? inClass text = some length → length ≤ text.length := by
  fun_induction regexLength? inClass text with
  | case1 inClass => exact fun _ read => nomatch read
  | case2 inClass => exact fun _ read => nomatch read
  | case3 inClass hidden rest ih =>
      intro length read
      obtain ⟨later, readLater, rfl⟩ := Option.map_eq_some_iff.mp read
      exact Nat.add_le_add_right (ih later readLater) 2
  | case4 inClass char rest noEscape isBreak => exact fun _ read => nomatch read
  | case5 inClass char rest noEscape noBreak isEnd =>
      intro length read
      cases read
      exact Nat.succ_le_succ (List.takeWhile_sublist _).length_le
  | case6 inClass char rest noEscape noBreak noEnd inClass' ih =>
      intro length read
      obtain ⟨later, readLater, rfl⟩ := Option.map_eq_some_iff.mp read
      exact Nat.succ_le_succ (ih later readLater)

end Literal

/-! ## One token -/

theorem numberLength_le (text : Text) : numberLength text ≤ text.length := by
  unfold numberLength
  have whole : (text.takeWhile continuesNumber).length ≤ text.length :=
    (List.takeWhile_sublist _).length_le
  simp only
  split
  · rename_i rest after
    have split := congrArg List.length after
    have fraction : (rest.takeWhile continuesNumber).length ≤ rest.length :=
      (List.takeWhile_sublist _).length_le
    rw [List.length_drop, List.length_cons] at split
    omega
  · exact whole

theorem length_readSlash_le (operandExpected : Bool) (rest : Text) :
    (readSlash operandExpected rest).2 ≤ rest.length := by
  unfold readSlash
  split
  · exact Nat.succ_le_succ (Literal.lineCommentLength_le _)
  · exact Nat.succ_le_succ (Literal.blockCommentLength_le _)
  · split
    · rename_i length read
      cases operandExpected with
      | false => cases read
      | true => exact Literal.regexLength?_le false rest length read
    · exact Nat.zero_le _

/--
The reader of a token that begins with a character.  It is chosen by that character alone, and only
a slash has a reader that looks at whether an operand is expected.
-/
inductive ReadsBy (first : Char) : Prop where
  | slash (isSlash : first = '/')
      (reads : ∀ operandExpected rest,
        readToken operandExpected first rest = readSlash operandExpected rest)
  | equals (isEquals : first = '=')
      (reads : ∀ operandExpected rest, readToken operandExpected first rest =
        if rest.head? = some '>' then (.arrow, 1) else (.equals, 0))
  | string (isQuote : first = '\'' ∨ first = '"')
      (reads : ∀ operandExpected rest,
        readToken operandExpected first rest = (.string, Literal.quotedLength first rest))
  | template (isBacktick : first = '\x60')
      (reads : ∀ operandExpected rest,
        readToken operandExpected first rest = (.template, Literal.templateLength rest))
  | identifier (begins : beginsIdentifier first)
      (reads : ∀ operandExpected rest, readToken operandExpected first rest =
        (.identifier, (rest.takeWhile continuesIdentifier).length))
  | number (isDigit : first.isDigit)
      (reads : ∀ operandExpected rest,
        readToken operandExpected first rest = (.number, numberLength rest))
  /-- A token of one character, none of the kinds above. -/
  | single (kind : TokenKind)
      (isSingle : kind ∉ [.endOfFile, .lineComment, .blockComment, .identifier, .string, .regex])
      (reads : ∀ operandExpected rest, readToken operandExpected first rest = (kind, 0))

theorem readsBy (first : Char) : ReadsBy first := by
  by_cases isSlash : first = '/'
  · exact .slash isSlash fun _ _ => if_pos isSlash
  by_cases isEquals : first = '='
  · refine .equals isEquals fun operandExpected rest => ?_
    unfold readToken
    rw [if_neg isSlash, if_pos isEquals]
    match rest with
    | [] => rfl
    | next :: rest => by_cases isArrow : next = '>' <;> simp [isArrow]
  by_cases isQuote : first = '\'' ∨ first = '"'
  · refine .string isQuote fun _ _ => ?_
    unfold readToken
    rw [if_neg isSlash, if_neg isEquals, if_pos isQuote]
  by_cases isBacktick : first = '\x60'
  · refine .template isBacktick fun _ _ => ?_
    unfold readToken
    rw [if_neg isSlash, if_neg isEquals, if_neg isQuote, if_pos isBacktick]
  by_cases begins : beginsIdentifier first
  · refine .identifier begins fun _ _ => ?_
    unfold readToken
    rw [if_neg isSlash, if_neg isEquals, if_neg isQuote, if_neg isBacktick, if_pos begins]
  by_cases isDigit : first.isDigit
  · refine .number isDigit fun _ _ => ?_
    unfold readToken
    rw [if_neg isSlash, if_neg isEquals, if_neg isQuote, if_neg isBacktick, if_neg begins,
      if_pos isDigit]
  · refine .single ((punctuation? first).getD .invalid) ?_ fun _ _ => ?_
    · unfold punctuation?
      split <;> decide
    · unfold readToken
      rw [if_neg isSlash, if_neg isEquals, if_neg isQuote, if_neg isBacktick, if_neg begins,
        if_neg isDigit]

/-- **No token reaches past the end of its text.** -/
theorem length_readToken_le (operandExpected : Bool) (first : Char) (rest : Text) :
    (readToken operandExpected first rest).2 ≤ rest.length := by
  cases readsBy first with
  | slash _ reads => exact reads _ rest ▸ length_readSlash_le operandExpected rest
  | equals _ reads =>
      rw [reads]
      cases rest with
      | nil => exact Nat.zero_le _
      | cons next rest =>
          split
          · exact Nat.succ_le_succ (Nat.zero_le _)
          · exact Nat.zero_le _
  | string _ reads => exact reads _ rest ▸ Literal.quotedLength_le first rest
  | template _ reads => exact reads _ rest ▸ Literal.templateLength_le rest
  | identifier _ reads => exact reads operandExpected rest ▸ (List.takeWhile_sublist _).length_le
  | number _ reads => exact reads _ rest ▸ numberLength_le rest
  | single kind _ reads => exact reads _ rest ▸ Nat.zero_le _

end ComponentTsx
