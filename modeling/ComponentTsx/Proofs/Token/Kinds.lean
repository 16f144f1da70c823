import ComponentTsx.Proofs.Token.Words
import Mathlib.Data.List.Nodup

/-!
# What the tokens of each kind are

A token's kind says what its text is and what cannot follow it: an identifier and
a number take all that belongs to them, a comment goes on to its end, and an
equals sign is none before a `>` (`TokenKind.Fits`).  A slash begins a regular
expression if it stands where an operand is expected and another slash closes it
on its line, and it is a division otherwise.  Whether an operand is expected
depends on one token only, the last one before the slash that is neither a
comment nor a line feed (`foldl_operandExpectedAfter`).
-/

namespace ComponentTsx

set_option autoImplicit false

open Literal (IsRegexBody)

/-! ## Kinds and texts -/

namespace TokenKind

/-- The characters that are tokens of a kind by themselves, whatever stands behind them. -/
def marks : TokenKind → List Char
  | newline => ['\n']
  | opening .angle => ['<']
  | closing .angle => ['>']
  | opening .brace => ['{']
  | closing .brace => ['}']
  | opening .paren => ['(']
  | closing .paren => [')']
  | opening .square => ['[']
  | closing .square => [']']
  | comma => [',']
  | semicolon => [';']
  | colon => [':']
  | question => ['?']
  | dot => ['.']
  | pipe => ['|']
  | ampersand => ['&']
  | star => ['*']
  | operator => ['-', '+', '%', '!', '~', '^', '@', '#']
  | _ => []

/--
Whether a text may be a token of a kind before what follows it.  Of strings and templates only the
first character is told.
-/
def Fits : TokenKind → Text → Text → Prop
  | lineComment, text, after =>
      ∃ body, text = '/' :: '/' :: body ∧ '\n' ∉ body ∧ (after = [] ∨ ['\n'] <+: after)
  | blockComment, text, after =>
      ∃ body, ¬ ['*', '/'] <:+: body ∧
        (text = '/' :: '*' :: (body ++ ['*', '/']) ∨ text = '/' :: '*' :: body ∧ after = [])
  | string, text, _ => ['\''] <+: text ∨ ['"'] <+: text
  | template, text, _ => ['\x60'] <+: text
  | regex, text, after =>
      ∃ body flags, text = '/' :: (body ++ '/' :: flags) ∧ IsRegexBody false body ∧
        (∀ char ∈ flags, char.isAlpha) ∧ ∀ next ∈ after.head?, ¬ next.isAlpha
  | identifier, text, after => text.isWord ∧ ∀ next ∈ after.head?, ¬ continuesIdentifier next
  | number, text, after =>
      text.IsNumber ∧ ∀ more, more ≠ [] → more <+: after → ¬ Text.IsNumber (text ++ more)
  | equals, text, after => text = ['='] ∧ after.head? ≠ some '>'
  | arrow, text, _ => text = ['=', '>']
  | slash, text, after => text = ['/'] ∧ after.head? ≠ some '/' ∧ after.head? ≠ some '*'
  | invalid, text, _ =>
      ∃ char, text = [char] ∧ ¬ isBlank char ∧ ¬ continuesIdentifier char ∧
        char ∉ ['/', '=', '\'', '"', '\x60'] ∧ ∀ kind : TokenKind, char ∉ kind.marks
  | kind, text, _ => ∃ char ∈ kind.marks, text = [char]

theorem punctuation?_of_mem_marks (kind : TokenKind) :
    ∀ char ∈ kind.marks, punctuation? char = some kind := by
  cases kind with
  | opening bracket | closing bracket => cases bracket <;> simp [marks, punctuation?]
  | _ => simp [marks, punctuation?]

theorem mem_marks_of_punctuation? {kind : TokenKind} {char : Char}
    (isMark : punctuation? char = some kind) : char ∈ kind.marks := by
  unfold punctuation? at isMark
  split at isMark
  all_goals cases isMark
  all_goals decide

end TokenKind

/-! ## One token -/

theorem Text.head?_ne {text : Text} {char : Char} (differs : ∀ more, text ≠ char :: more) :
    text.head? ≠ some char := by
  intro isHead
  obtain ⟨more, whole⟩ := List.head?_eq_some_iff.mp isHead
  exact differs more whole

theorem fits_punctuation {char : Char} {kind : TokenKind} (isMark : punctuation? char = some kind)
    (after : Text) : kind.Fits [char] after := by
  have member := TokenKind.mem_marks_of_punctuation? isMark
  unfold TokenKind.Fits
  split
  all_goals first | exact ⟨char, member, rfl⟩ | cases member

theorem fits_regex {rest : Text} {length : Nat}
    (read : Literal.regexLength? false rest = some length) :
    TokenKind.regex.Fits ('/' :: rest.take length) (rest.drop length) := by
  obtain ⟨body, more, rfl, isBody, rfl⟩ := Literal.regexLength?_eq_some_iff.mp read
  obtain ⟨flags, after, rfl, length, areFlags, stops⟩ := exists_run Char.isAlpha more
  have isLength : Literal.closingLength (flags ++ after) + body.length =
      (body ++ '/' :: flags).length := by
    rw [Literal.closingLength, length, List.length_append, List.length_cons, Nat.add_comm]
  have whole : body ++ '/' :: (flags ++ after) = body ++ '/' :: flags ++ after := by simp
  rw [isLength, whole, List.take_left, List.drop_left]
  exact ⟨body, flags, rfl, isBody, areFlags, stops⟩

theorem fits_readSlash {operandExpected : Bool} {rest : Text} {kind : TokenKind} {length : Nat}
    (read : readSlash operandExpected rest = (kind, length)) :
    kind.Fits ('/' :: rest.take length) (rest.drop length) := by
  rw [readSlash.eq_def] at read
  split at read
  · rename_i rest
    obtain ⟨rfl, rfl⟩ := Prod.mk.inj read
    obtain ⟨body, after, rfl, length, oneLine, ends⟩ := Literal.exists_lineComment rest
    rw [length, List.take_succ_cons, List.drop_succ_cons, List.take_left, List.drop_left]
    exact ⟨body, rfl, oneLine, ends⟩
  · rename_i rest
    obtain ⟨rfl, rfl⟩ := Prod.mk.inj read
    obtain ⟨body, closed, ⟨⟨after, rfl⟩, length⟩ | ⟨rfl, length⟩⟩ :=
      Literal.exists_blockComment rest
    · rw [length, List.take_succ_cons, List.drop_succ_cons, List.take_left, List.drop_left]
      exact ⟨body, closed, .inl rfl⟩
    · rw [length, List.take_succ_cons, List.drop_succ_cons, List.take_length, List.drop_length]
      exact ⟨rest, closed, .inr ⟨rfl, rfl⟩⟩
  · rename_i noLine noBlock
    split at read
    · rename_i isRead
      obtain ⟨rfl, rfl⟩ := Prod.mk.inj read
      cases operandExpected with
      | false => cases isRead
      | true => exact fits_regex isRead
    · obtain ⟨rfl, rfl⟩ := Prod.mk.inj read
      exact ⟨rfl, Text.head?_ne noLine, Text.head?_ne noBlock⟩

/-- **A token is what its kind says**, and what follows it does not belong to it. -/
theorem fits_readToken {operandExpected : Bool} {first : Char} {rest : Text} {kind : TokenKind}
    {length : Nat} (noBlank : ¬ isBlank first)
    (read : readToken operandExpected first rest = (kind, length)) :
    kind.Fits (first :: rest.take length) (rest.drop length) := by
  unfold readToken at read
  split_ifs at read with isSlash isEquals isQuote isBacktick begins isDigit
  · subst isSlash
    exact fits_readSlash read
  · subst isEquals
    split at read
    · obtain ⟨rfl, rfl⟩ := Prod.mk.inj read
      rfl
    · rename_i noArrow
      obtain ⟨rfl, rfl⟩ := Prod.mk.inj read
      exact ⟨rfl, Text.head?_ne noArrow⟩
  · obtain ⟨rfl, rfl⟩ := Prod.mk.inj read
    rcases isQuote with rfl | rfl
    · exact .inl ⟨_, rfl⟩
    · exact .inr ⟨_, rfl⟩
  · obtain ⟨rfl, rfl⟩ := Prod.mk.inj read
    subst isBacktick
    exact ⟨_, rfl⟩
  · obtain ⟨rfl, rfl⟩ := Prod.mk.inj read
    obtain ⟨others, after, rfl, length, continues, stops⟩ := exists_run continuesIdentifier rest
    rw [length, List.take_left, List.drop_left]
    exact ⟨Text.isWord_cons.mpr ⟨begins, continues⟩, stops⟩
  · obtain ⟨rfl, rfl⟩ := Prod.mk.inj read
    obtain ⟨inside, after, rfl, length, isNumber, longest⟩ := exists_number isDigit rest
    rw [length, List.take_left, List.drop_left]
    exact ⟨isNumber, longest⟩
  · obtain ⟨rfl, rfl⟩ := Prod.mk.inj read
    cases isMark : punctuation? first with
    | some kind => exact fits_punctuation isMark rest
    | none =>
        refine ⟨first, rfl, noBlank, ?_, ?_, fun kind member => ?_⟩
        · simp [continuesIdentifier, begins, isDigit]
        · simp_all
        · cases isMark.symm.trans (kind.punctuation?_of_mem_marks first member)

/-! ## Where an operand is expected -/

/-- Whether a token ends an operand, so that a slash behind it divides. -/
def Token.EndsOperand (token : Token) : Prop :=
  token.kind ∈ [.number, .string, .template, .regex, .closing .paren, .closing .square] ∨
    token.kind = .identifier ∧ token.text ∉ operandKeywords.map String.toList

/-- Whether a token counts for what is expected behind it: comments and line feeds do not. -/
def Token.counts (token : Token) : Bool :=
  decide (token.kind ∉ [.lineComment, .blockComment, .newline])

/-- Whether an operand is expected behind some tokens: the last that counts ends no operand. -/
def ExpectsOperand (earlier : List Token) : Prop :=
  ∀ last ∈ (earlier.filter Token.counts).getLast?, ¬ last.EndsOperand

theorem Token.isOneOf_iff {token : Token} (isIdentifier : token.kind = .identifier)
    (words : List String) : token.isOneOf words ↔ token.text ∈ words.map String.toList := by
  rw [isOneOf, List.any_eq_true, List.mem_map]
  simp only [isWord, isIdentifier, decide_true, Bool.true_and, decide_eq_true_eq,
    @eq_comm _ token.text]

theorem operandExpectedAfter_of_not_counts {token : Token} (passed : ¬ token.counts)
    (expectedBefore : Bool) : operandExpectedAfter expectedBefore token = expectedBefore := by
  simp only [Token.counts, decide_eq_true_eq, not_not, List.mem_cons, List.not_mem_nil,
    or_false] at passed
  rcases passed with isKind | isKind | isKind <;> rw [operandExpectedAfter, isKind]

theorem operandExpectedAfter_iff {token : Token} (counts : token.counts) (expectedBefore : Bool) :
    operandExpectedAfter expectedBefore token ↔ ¬ token.EndsOperand := by
  obtain ⟨kind, start, text⟩ := token
  cases kind with
  | lineComment | blockComment | newline => cases counts
  | identifier => simp [operandExpectedAfter, Token.EndsOperand, Token.isOneOf_iff]
  | closing bracket => cases bracket <;> simp [operandExpectedAfter, Token.EndsOperand]
  | _ => simp [operandExpectedAfter, Token.EndsOperand]

/-- **Whether an operand is expected depends on the last token that counts.** -/
theorem foldl_operandExpectedAfter (earlier : List Token) :
    earlier.foldl operandExpectedAfter true ↔ ExpectsOperand earlier := by
  unfold ExpectsOperand
  induction earlier using List.reverseRecOn with
  | nil => simp
  | append_singleton earlier token ih =>
      rw [List.foldl_append, List.foldl_cons, List.foldl_nil, List.filter_append]
      by_cases counts : token.counts
      · rw [operandExpectedAfter_iff counts, List.filter_cons_of_pos counts, List.filter_nil,
          List.getLast?_concat]
        simp
      · rw [operandExpectedAfter_of_not_counts counts, ih, List.filter_cons_of_neg counts,
          List.filter_nil, List.append_nil]

/-- A slash that begins no comment begins a regular expression where one can be read. -/
theorem kind_readSlash_eq_regex_iff {operandExpected : Bool} {rest : Text} {kind : TokenKind}
    {length : Nat} (read : readSlash operandExpected rest = (kind, length))
    (noComment : kind = .slash ∨ kind = .regex) :
    kind = .regex ↔
      operandExpected ∧ ∃ body more, rest = body ++ '/' :: more ∧ IsRegexBody false body := by
  rw [readSlash.eq_def] at read
  split at read
  · obtain ⟨rfl, -⟩ := Prod.mk.inj read
    simp at noComment
  · obtain ⟨rfl, -⟩ := Prod.mk.inj read
    simp at noComment
  · split at read
    · rename_i length isRead
      obtain ⟨rfl, rfl⟩ := Prod.mk.inj read
      cases operandExpected with
      | false => cases isRead
      | true =>
          obtain ⟨body, more, whole, isBody, -⟩ := Literal.regexLength?_eq_some_iff.mp isRead
          exact iff_of_true rfl ⟨rfl, body, more, whole, isBody⟩
    · rename_i notRead
      obtain ⟨rfl, rfl⟩ := Prod.mk.inj read
      refine iff_of_false TokenKind.noConfusion ?_
      rintro ⟨rfl, body, more, rfl, isBody⟩
      cases (isBody.regexLength?_eq more).symm.trans notRead

/-! ## All tokens -/

/-- Whether a token is what its kind says, where it stands in a text behind other tokens. -/
structure Token.IsExact (before after : Text) (earlier : List Token) (token : Token) : Prop where
  /-- The token begins where the text before it ends. -/
  place : token.start = before.byteLength
  /-- The token is all of what its kind is. -/
  fits : token.kind.Fits token.text after
  /-- A slash begins a regular expression if an operand is expected and the slash is closed. -/
  divides : token.kind = .slash ∨ token.kind = .regex →
    (token.kind = .regex ↔ ExpectsOperand earlier ∧
      ∃ body more, token.text ++ after = '/' :: (body ++ '/' :: more) ∧ IsRegexBody false body)

theorem not_isBlank_of_mem_tokensFrom {start : Nat} {operandExpected : Bool} {text : Text}
    {token : Token} (member : token ∈ tokensFrom start operandExpected text) :
    ∀ first ∈ token.text.head?, ¬ isBlank first := by
  fun_induction tokensFrom start operandExpected text with
  | case1 start operandExpected =>
      rw [List.mem_singleton.mp member]
      simp
  | case2 start operandExpected first rest blank ih => exact ih member
  | case3 start operandExpected first rest noBlank kind length read token' ih =>
      rcases List.mem_cons.mp member with rfl | isLater
      · rintro _ ⟨⟩
        exact noBlank
      · exact ih isLater

/-- A slash or a regular expression begins with a slash. -/
theorem TokenKind.Fits.isSlash {kind : TokenKind} {first : Char} {rest after : Text}
    (fits : kind.Fits (first :: rest) after) (isKind : kind = .slash ∨ kind = .regex) :
    first = '/' := by
  rcases isKind with rfl | rfl
  · exact (List.cons.inj fits.1).1
  · obtain ⟨body, flags, isText, -⟩ := fits
    exact (List.cons.inj isText).1

/-- **The kinds of the tokens are exact**, and no token could be longer. -/
theorem exists_isExact_of_tokenize {source : Text} {earlier later : List Token} {token : Token}
    (lexed : tokenize source = earlier ++ token :: later) (notEnd : token.kind ≠ .endOfFile) :
    ∃ before after, source = before ++ token.text ++ after ∧
      token.IsExact before after earlier := by
  have noBlank := not_isBlank_of_mem_tokensFrom (lexed ▸ List.mem_append_cons_self)
  obtain ⟨before, first, rest, length, rfl, place, taken, read, -⟩ :=
    exists_read_of_tokensFrom notEnd lexed
  rw [taken] at noBlank
  have fits := fits_readToken (noBlank first rfl) read
  have whole : token.text ++ rest.drop length = first :: rest := by
    rw [taken, List.cons_append, List.take_append_drop]
  refine ⟨before, rest.drop length, ?_, ?place, ?fits, ?divides⟩
  · rw [List.append_assoc, whole]
  case place => rwa [Nat.zero_add] at place
  case fits => rwa [taken]
  case divides =>
    intro isKind
    -- Both kinds begin with a slash, and there reading a token is reading a slash.
    cases fits.isSlash isKind
    rw [whole, kind_readSlash_eq_regex_iff read isKind, foldl_operandExpectedAfter]
    simp only [List.cons.injEq, true_and]

/-- Behind a word that asks for an operand, over a comment and a line feed. -/
theorem exists_isExact_of_tokenize_regex :
    let source : Text := "return // n\n/[/]\\//g.x".toList
    let earlier : List Token := [⟨.identifier, 0, "return".toList⟩,
      ⟨.lineComment, 7, "// n".toList⟩, ⟨.newline, 11, ['\n']⟩]
    let token : Token := ⟨.regex, 12, "/[/]\\//g".toList⟩
    let later : List Token := [⟨.dot, 20, ['.']⟩, ⟨.identifier, 21, ['x']⟩, ⟨.endOfFile, 22, []⟩]
    tokenize source = earlier ++ token :: later ∧ token.kind ≠ .endOfFile ∧
      ∃ before after, source = before ++ token.text ++ after ∧
        token.IsExact before after earlier := by
  intro source earlier token later
  have lexed : tokenize source = earlier ++ token :: later := by decide +kernel
  have notEnd : token.kind ≠ .endOfFile := by decide
  exact ⟨lexed, notEnd, exists_isExact_of_tokenize lexed notEnd⟩

/-! ## Names -/

namespace TokenKind

/-- **A kind that is named in quotes is named by the text of its tokens.** -/
theorem Fits.name_eq {kind : TokenKind} {text after : Text} (fits : kind.Fits text after)
    (quoted : ['\''] <+: kind.name.toList) :
    kind.name.toList = '\'' :: text ++ ['\''] := by
  cases kind with
  | opening bracket | closing bracket =>
      cases bracket <;>
        · obtain ⟨char, isMark, rfl⟩ := fits
          rw [List.mem_singleton.mp isMark]
          rfl
  | comma | semicolon | colon | question | dot | pipe | ampersand | star =>
      obtain ⟨char, isMark, rfl⟩ := fits
      rw [List.mem_singleton.mp isMark]
      rfl
  | arrow =>
      rw [show text = _ from fits]
      rfl
  | equals | slash =>
      rw [fits.1]
      rfl
  | _ => exact absurd quoted (by decide)

/-- All kinds. -/
def all : List TokenKind :=
  [newline, lineComment, blockComment, string, template, regex, identifier, number, comma,
    semicolon, colon, question, equals, arrow, dot, slash, pipe, ampersand, star, operator,
    endOfFile, invalid] ++
  [Bracket.angle, .brace, .paren, .square].flatMap fun bracket => [opening bracket, closing bracket]

theorem mem_all (kind : TokenKind) : kind ∈ all := by
  cases kind with
  | opening bracket | closing bracket => cases bracket <;> decide
  | _ => decide

/-- **No two kinds have one name.** -/
theorem name_inj {first second : TokenKind} : first.name = second.name ↔ first = second := by
  have apart : (all.map name).Nodup := by decide +kernel
  exact ⟨fun same => List.inj_on_of_nodup_map apart (mem_all first) (mem_all second) same,
    congrArg name⟩

end TokenKind

end ComponentTsx
