import ComponentTsx.Proofs.Literal.Extent
import ComponentTsx.Proofs.Token.Replacement

/-!
# Blanks in place of a comment

A text with blanks in place of a comment has the tokens of the text without the
comment (`tokenize_blanked`).  Most tokens before the comment end before they
could meet it.  A slash, however, is a division only because no regular
expression ends on its line, and it looks for that end through the comment.  It
gets as far as the comment within a character class or not at all, since outside
a class the comment's first slash would have ended it; and when the comment ends
with `*/`, the class must go on behind that slash too, so that blanks hide
nothing from the search (`regexLength?_after_comment`).
-/

namespace ComponentTsx

set_option autoImplicit false

/-! ## Regular expressions across a place -/

namespace Literal

/-- How far a regular expression gets in a text, whatever follows the text. -/
inductive RegexRun (inClass : Bool) (text : Text) : Prop where
  /-- The line ends. -/
  | breaks (isBreak : '\n' ∈ text ∨ '\r' ∈ text)
      (none : ∀ more, regexLength? inClass (text ++ more) = none)
  /-- The expression ends, but for flags. -/
  | ends (length : Nat) (flags : Text)
      (found : ∀ more, regexLength? inClass (text ++ more) =
        some (((flags ++ more).takeWhile Char.isAlpha).length + length))
  /-- The expression goes on, in a character class or outside. -/
  | goesOn (inClassAfter : Bool)
      (later : ∀ more, regexLength? inClass (text ++ more) =
        (regexLength? inClassAfter more).map (· + text.length))

theorem RegexRun.append {inClass inClassAfter : Bool} {rest : Text} (part : Text)
    (step : ∀ more, regexLength? inClass (part ++ rest ++ more) =
      (regexLength? inClassAfter (rest ++ more)).map (· + part.length))
    (run : RegexRun inClassAfter rest) : RegexRun inClass (part ++ rest) := by
  cases run with
  | breaks isBreak none =>
      refine .breaks (isBreak.imp (List.mem_append_right part) (List.mem_append_right part)) ?_
      intro more
      rw [step, none, Option.map_none]
  | ends length flags found =>
      refine .ends (length + part.length) flags fun more => ?_
      rw [step, found, Option.map_some, Nat.add_assoc]
  | goesOn inClassLater later =>
      refine .goesOn inClassLater fun more => ?_
      rw [step, later, Option.map_map, List.length_append]
      congr 1
      funext length
      simp only [Function.comp_apply]
      omega

theorem getLast?_ne_of_cons {first last : Char} {rest : Text}
    (different : (first :: rest).getLast? ≠ some last) : rest.getLast? ≠ some last := by
  cases rest with
  | nil => exact fun isLast => nomatch isLast
  | cons next rest => rwa [List.getLast?_cons_cons] at different

/-- What a text does to a regular expression, if the text does not end with a backslash. -/
theorem regexRun (inClass : Bool) (text : Text) (noEscape : text.getLast? ≠ some '\\') :
    RegexRun inClass text := by
  fun_induction regexLength? inClass text with
  | case1 inClass => exact .goesOn inClass fun more => by simp
  | case2 inClass => exact absurd rfl noEscape
  | case3 inClass hidden rest ih =>
      have later := getLast?_ne_of_cons (getLast?_ne_of_cons noEscape)
      exact .append ['\\', hidden] (fun more => by simp [regexLength?]) (ih later)
  | case4 inClass char rest noEscape' isBreak =>
      refine .breaks ?_ fun more => ?_
      · rcases isBreak with rfl | rfl <;> simp
      · rw [List.cons_append, regexLength?, if_pos isBreak]
        exact noEscape'
  | case5 inClass char rest noEscape' noBreak isEnd =>
      refine .ends 1 rest fun more => ?_
      rw [List.cons_append, regexLength?, if_neg noBreak, if_pos isEnd]
      exact noEscape'
  | case6 inClass char rest noEscape' noBreak noEnd inClass' ih =>
      refine .append [char] (fun more => ?_) (ih (getLast?_ne_of_cons noEscape))
      rw [List.append_assoc, List.singleton_append, regexLength?, if_neg noBreak, if_neg noEnd]
      · rfl
      · exact noEscape'

theorem regexLength?_slash (text : Text) :
    regexLength? false ('/' :: text) = some ((text.takeWhile Char.isAlpha).length + 1) := by
  simp [regexLength?]

theorem regexLength?_slash_inClass (text : Text) :
    regexLength? true ('/' :: text) = (regexLength? true text).map (· + 1) := by
  simp [regexLength?]

/-- A regular expression has at least its closing slash. -/
theorem regexLength?_pos {inClass : Bool} {text : Text} {length : Nat}
    (found : regexLength? inClass text = some length) : 0 < length := by
  unfold regexLength? at found
  split at found
  · cases found
  · split at found
    · cases found
    · obtain ⟨later, _, rfl⟩ := Option.map_eq_some_iff.mp found
      exact Nat.succ_pos _
  · split at found
    · cases found
    · split at found
      · cases found
        exact Nat.succ_pos _
      · obtain ⟨later, _, rfl⟩ := Option.map_eq_some_iff.mp found
        exact Nat.succ_pos _

/-- A character class that a slash does not end an expression in goes on behind the slash. -/
theorem regexLength?_after_slash {inClass : Bool} {text after : Text}
    (noBreak : '\n' ∉ text ∧ '\r' ∉ text) (noEscape : text.getLast? ≠ some '\\')
    (notFound : regexLength? inClass (text ++ '/' :: after) = none) :
    regexLength? true after = none := by
  cases regexRun inClass text noEscape with
  | breaks isBreak => exact absurd isBreak (not_or.mpr noBreak)
  | ends length flags found =>
      rw [found] at notFound
      cases notFound
  | goesOn inClassAfter later =>
      rw [later, Option.map_eq_none_iff] at notFound
      cases inClassAfter with
      | false =>
          rw [regexLength?_slash] at notFound
          cases notFound
      | true => rwa [regexLength?_slash_inClass, Option.map_eq_none_iff] at notFound

/-- Blanks neither end an expression nor hide anything from it. -/
theorem regexLength?_blanks {inClass : Bool} {after : Text}
    (notFound : regexLength? inClass after = none) (count : Nat) :
    regexLength? inClass (List.replicate count ' ' ++ after) = none := by
  induction count with
  | zero => exact notFound
  | succ count ih => simp [List.replicate_succ, regexLength?, ih]

/--
A regular expression that does not end behind a place is not found either with a blank in place of
the slash there, if the blank hides nothing from a character class.
-/
theorem regexLength?_blank {rest more other : Text} (noEscape : rest.getLast? ≠ some '\\')
    (hidesNothing : regexLength? true ('/' :: more) = none →
      regexLength? true (' ' :: other) = none)
    (ends : (regexLength? false (rest ++ '/' :: more)).getD 0 ≤ rest.length) :
    regexLength? false (rest ++ ' ' :: other) = regexLength? false (rest ++ '/' :: more) := by
  cases regexRun false rest noEscape with
  | breaks _ none => rw [none, none]
  | ends length flags found =>
      rw [found, found, takeWhile_append_cons (by decide), takeWhile_append_cons (by decide)]
  | goesOn inClassAfter later =>
      rw [later] at ends
      cases inClassAfter with
      | false =>
          rw [regexLength?_slash, Option.map_some, Option.getD_some] at ends
          omega
      | true =>
          cases found : regexLength? true ('/' :: more) with
          | none => rw [later, later, found, hidesNothing found]
          | some length =>
              have positive := regexLength?_pos found
              rw [found, Option.map_some, Option.getD_some] at ends
              omega

/-! ## Regular expressions across a comment -/

theorem regexLength?_after_line (inClass : Bool) (text : Text) :
    regexLength? inClass (text.drop (lineCommentLength text)) = none := by
  obtain ⟨body, after, rfl, length, -, rfl | ⟨rest, rfl⟩⟩ := exists_lineComment text
  · rw [length, List.drop_left, regexLength?]
  · rw [length, List.drop_left]
    simp [regexLength?]

end Literal

theorem readToken_comment {operandExpected : Bool} {first : Char} {rest : Text} {kind : TokenKind}
    {length : Nat} (read : readToken operandExpected first rest = (kind, length))
    (isComment : kind.isTrivia) :
    first = '/' ∧ ∃ body,
      rest = '/' :: body ∧ length = Literal.lineCommentLength body + 1 ∨
        rest = '*' :: body ∧ length = Literal.blockCommentLength body + 1 := by
  cases readsBy first with
  | slash isSlash reads =>
      refine ⟨isSlash, ?_⟩
      rw [reads, readSlash.eq_def] at read
      split at read
      · cases read
        exact ⟨_, .inl ⟨rfl, rfl⟩⟩
      · cases read
        exact ⟨_, .inr ⟨rfl, rfl⟩⟩
      · split at read <;> cases read <;> cases isComment
  | equals _ reads =>
      rw [reads] at read
      split at read <;> cases read <;> cases isComment
  | string _ reads | template _ reads | identifier _ reads | number _ reads =>
      rw [reads] at read
      cases read
      cases isComment
  | single kind isSingle reads =>
      rw [reads] at read
      cases read
      cases kind <;> first | exact absurd (by decide) isSingle | cases isComment

/--
A character class that a regular expression cannot get out of before a comment on one line cannot be
got out of behind it either.
-/
theorem regexLength?_after_comment {operandExpected : Bool} {first : Char} {rest : Text}
    {kind : TokenKind} {length : Nat} (read : readToken operandExpected first rest = (kind, length))
    (isComment : kind.isTrivia)
    (oneLine : '\n' ∉ rest.take length ∧ '\r' ∉ rest.take length)
    (notFound : Literal.regexLength? true (first :: rest) = none) :
    Literal.regexLength? true (rest.drop length) = none := by
  obtain ⟨rfl, body, ⟨rfl, rfl⟩ | ⟨rfl, rfl⟩⟩ := readToken_comment read isComment
  · exact Literal.regexLength?_after_line true body
  · obtain ⟨inner, -, ⟨⟨after, rfl⟩, length⟩ | ⟨rfl, length⟩⟩ := Literal.exists_blockComment body
    · rw [length, List.take_succ_cons, List.take_left] at oneLine
      rw [length, List.drop_succ_cons, List.drop_left]
      have whole : '/' :: '*' :: (inner ++ ['*', '/'] ++ after) =
          ('/' :: '*' :: inner ++ ['*']) ++ '/' :: after := by simp
      rw [whole] at notFound
      refine Literal.regexLength?_after_slash (by simp_all) ?_ notFound
      rw [List.getLast?_concat]
      decide
    · rw [length, List.drop_succ_cons, List.drop_length, Literal.regexLength?]

/-! ## All tokens -/

/-- A token among others is read where it stands, after the tokens before it. -/
theorem exists_read_of_tokensFrom {start : Nat} {operandExpected : Bool} {text : Text}
    {earlier later : List Token} {token : Token} (notEnd : token.kind ≠ .endOfFile)
    (lexed : tokensFrom start operandExpected text = earlier ++ token :: later) :
    ∃ before first rest length, text = before ++ first :: rest ∧
      token.start = start + Text.byteLength before ∧ token.text = first :: rest.take length ∧
      readToken (earlier.foldl operandExpectedAfter operandExpected) first rest =
        (token.kind, length) ∧
      later = tokensFrom token.stop
        ((earlier ++ [token]).foldl operandExpectedAfter operandExpected) (rest.drop length) := by
  fun_induction tokensFrom start operandExpected text generalizing earlier with
  | case1 start operandExpected =>
      cases earlier with
      | nil =>
          cases lexed
          exact absurd rfl notEnd
      | cons head earlier =>
          have tooLong := congrArg List.length lexed
          simp at tooLong
  | case2 start operandExpected first rest blank ih =>
      obtain ⟨before, next, after, length, rfl, place, read⟩ := ih lexed
      refine ⟨first :: before, next, after, length, rfl, ?_, read⟩
      rw [place, Text.byteLength_cons, Nat.add_assoc]
  | case3 start operandExpected first rest noBlank kind length read here =>
      rename_i ih
      cases earlier with
      | nil =>
          obtain ⟨rfl, rfl⟩ := List.cons.inj lexed
          exact ⟨[], first, rest, length, rfl, rfl, rfl, read, rfl⟩
      | cons head earlier =>
          obtain ⟨rfl, others⟩ := List.cons.inj lexed
          obtain ⟨before, next, after, count, whole, place, laterRead⟩ := ih others
          refine ⟨here.text ++ before, next, after, count, ?_, ?_, laterRead⟩
          · rw [List.append_assoc, ← whole, List.cons_append, List.take_append_drop]
          · rw [place, Token.stop, Text.byteLength_append, Nat.add_assoc]

theorem tokensFrom_replicate (start : Nat) (operandExpected : Bool) (count : Nat) (text : Text) :
    tokensFrom start operandExpected (List.replicate count ' ' ++ text) =
      tokensFrom (start + count) operandExpected text := by
  induction count generalizing start with
  | zero => rfl
  | succ count ih =>
      have one : Char.utf8Size ' ' = 1 := rfl
      rw [List.replicate_succ, List.cons_append, tokensFrom_blank (by decide), ih, one,
        Nat.add_assoc, Nat.add_comm 1]

theorem ne_endOfFile_of_isTrivia {kind : TokenKind} (isComment : kind.isTrivia) :
    kind ≠ .endOfFile := by
  rintro rfl
  cases isComment

/-- Comments change nothing in whether an operand is expected. -/
theorem operandExpectedAfter_of_isTrivia {token : Token} (isComment : token.kind.isTrivia)
    (expectedBefore : Bool) : operandExpectedAfter expectedBefore token = expectedBefore := by
  unfold operandExpectedAfter
  split <;> simp_all [TokenKind.isTrivia]

/-- A blank ends every token that a comment's slash ends. -/
theorem endsFor_blank : EndsFor ' ' '/' where
  line := by decide
  identifier := by decide
  number := by decide
  mark := by simp

/-- Blanks in place of a comment that begins a text leave the tokens after the comment. -/
theorem tokensFrom_blanked_nil {comment : Token} {after : Text} {start : Nat}
    {operandExpected : Bool} {earlier later : List Token} (isComment : comment.kind.isTrivia)
    (place : comment.start = start)
    (lexed : tokensFrom start operandExpected (comment.text ++ after) =
      earlier ++ comment :: later) :
    tokensFrom start operandExpected (List.replicate comment.text.byteLength ' ' ++ after) =
      earlier ++ later := by
  have tiles : Tiles start (comment.text ++ after) (earlier ++ comment :: later) :=
    lexed ▸ tiles_tokensFrom _ _ _
  cases tiles.eq_nil_of_start place
  obtain ⟨none, first, rest, length, whole, isFirst, taken, _, rfl⟩ :=
    exists_read_of_tokensFrom (ne_endOfFile_of_isTrivia isComment) lexed
  have nothing : none = [] := by
    by_contra nonempty
    have positive := Text.byteLength_pos_iff.mpr nonempty
    omega
  subst nothing
  have isAfter : after = rest.drop length := by
    have split : comment.text ++ after = comment.text ++ rest.drop length := by
      rw [whole, taken, List.cons_append, List.take_append_drop]
      rfl
    exact List.append_cancel_left split
  rw [tokensFrom_replicate, ← isAfter, List.nil_append, List.nil_append, Token.stop, place,
    List.foldl_cons, List.foldl_nil, operandExpectedAfter_of_isTrivia isComment]

section Comment

variable {comment : Token} {body after : Text} (isText : comment.text = '/' :: body)
  (isComment : comment.kind.isTrivia)
  (hidesNothing : Literal.regexLength? true (comment.text ++ after) = none →
    Literal.regexLength? true after = none)

include isText hidesNothing

/-- A token that ends before a comment is the same with blanks in place of the comment. -/
theorem readToken_blanked {operandExpected : Bool} {first : Char} {rest : Text}
    (noEscape : rest.getLast? ≠ some '\\')
    (ends : (readToken operandExpected first (rest ++ (comment.text ++ after))).2 ≤ rest.length) :
    readToken operandExpected first
        (rest ++ (List.replicate comment.text.byteLength ' ' ++ after)) =
      readToken operandExpected first (rest ++ (comment.text ++ after)) := by
  obtain ⟨count, isLength⟩ : ∃ count, comment.text.byteLength = count + 1 :=
    Nat.exists_eq_add_one.mpr (Text.byteLength_pos_iff.mpr (by simp [isText]))
  have blanks : Literal.regexLength? true (comment.text ++ after) = none →
      Literal.regexLength? true (' ' :: (List.replicate count ' ' ++ after)) = none :=
    fun notFound => Literal.regexLength?_blanks (hidesNothing notFound) (count + 1)
  rw [isLength, List.replicate_succ, List.cons_append]
  rw [isText, List.cons_append] at ends blanks ⊢
  exact readToken_endsAlike endsFor_blank
    (fun _ _ => Literal.regexLength?_blank noEscape blanks) ends

include isComment

/-- With blanks in place of a comment, a text has the tokens around the comment. -/
theorem tokensFrom_blanked {start : Nat} {operandExpected : Bool} {before : Text}
    {earlier later : List Token} (noEscape : before.getLast? ≠ some '\\')
    (place : comment.start = start + before.byteLength)
    (lexed : tokensFrom start operandExpected (before ++ (comment.text ++ after)) =
      earlier ++ comment :: later) :
    tokensFrom start operandExpected
        (before ++ (List.replicate comment.text.byteLength ' ' ++ after)) = earlier ++ later := by
  have alike (expected : Bool) (first : Char) (rest : Text) (among : first :: rest <:+ before) :
      (readToken expected first (rest ++ (comment.text ++ after))).2 ≤ rest.length →
        readToken expected first
            (rest ++ (List.replicate comment.text.byteLength ' ' ++ after)) =
          readToken expected first (rest ++ (comment.text ++ after)) := by
    obtain ⟨front, whole⟩ := (List.suffix_cons first rest).trans among
    refine readToken_blanked isText hidesNothing fun isLast => noEscape ?_
    rw [← whole, List.getLast?_append, isLast]
    rfl
  obtain ⟨expected, here, replaced⟩ := tokensFrom_replaced alike place lexed
  have blanked := tokensFrom_blanked_nil isComment rfl (here.trans (List.nil_append _).symm)
  rw [replaced, blanked, List.nil_append]

end Comment

/--
**Blanks in place of a comment on one line leave the other tokens as they are**, each at its place.
The comment must not follow a backslash, behind which its first slash would be no more than a part
of a regular expression.
-/
theorem tokenize_blanked {before after : Text} {comment : Token}
    (member : comment ∈ tokenize (before ++ comment.text ++ after))
    (place : comment.start = before.byteLength) (isComment : comment.kind.isTrivia)
    (oneLine : '\n' ∉ comment.text ∧ '\r' ∉ comment.text)
    (noEscape : before.getLast? ≠ some '\\') :
    ∃ earlier later, tokenize (before ++ comment.text ++ after) = earlier ++ comment :: later ∧
      tokenize (before ++ List.replicate comment.text.byteLength ' ' ++ after) =
        earlier ++ later := by
  obtain ⟨earlier, later, lexed⟩ := List.append_of_mem member
  refine ⟨earlier, later, lexed, ?_⟩
  rw [List.append_assoc] at lexed ⊢
  obtain ⟨front, first, rest, length, whole, frontPlace, taken, read, _⟩ :=
    exists_read_of_tokensFrom (ne_endOfFile_of_isTrivia isComment) lexed
  rw [Nat.zero_add, place] at frontPlace
  have isRest := (Text.append_inj_of_byteLength whole frontPlace).2
  have isAfter : after = rest.drop length := by
    have split : comment.text ++ after = comment.text ++ rest.drop length := by
      rw [isRest, taken, List.cons_append, List.take_append_drop]
    exact List.append_cancel_left split
  have onOneLine : '\n' ∉ rest.take length ∧ '\r' ∉ rest.take length := by
    rw [taken] at oneLine
    exact ⟨mt (List.mem_cons_of_mem _) oneLine.1, mt (List.mem_cons_of_mem _) oneLine.2⟩
  obtain ⟨rfl, _⟩ := readToken_comment read isComment
  refine tokensFrom_blanked taken isComment (fun notFound => ?_) noEscape
    (place.trans (Nat.zero_add _).symm) lexed
  rw [isRest] at notFound
  rw [isAfter]
  exact regexLength?_after_comment read isComment onOneLine notFound

end ComponentTsx
