import ComponentTsx.Proofs.Literal.LineFeeds
import ComponentTsx.Proofs.Token.Blanking
import ComponentTsx.Proofs.Token.Tiling

/-!
# Where tokens have line feeds

A line feed is no blank, so each one in a text is in a token.  It is a token of
its own, or it is inside a block comment, a template, or a string in which an
escape stands right before it.  No other token should have a line feed in it,
but a regular expression has those that a backslash hides from it.

So line feeds are kept apart as they should be exactly in the texts none of
whose regular expressions has a line feed, and in particular in those without a
backslash right before a line feed (`keepsLineFeeds_iff`).
-/

namespace ComponentTsx

set_option autoImplicit false

open Text Literal

/-! ## One token -/

/-- How a token of a kind may have line feeds in its text. -/
def TokenKind.AdmitsBreaks (kind : TokenKind) (text : Text) : Prop :=
  match kind with
  | .newline => text = ['\n']
  | .blockComment | .template => True
  | .string => BreaksBehind stringEscapes text
  | .regex => BreaksBehind regexEscapes text
  | _ => '\n' ∉ text

theorem TokenKind.admitsBreaks_of_notMem {kind : TokenKind} {text : Text} (noBreak : '\n' ∉ text)
    (notNewline : kind ≠ .newline) : kind.AdmitsBreaks text := by
  cases kind with
  | newline => exact absurd rfl notNewline
  | blockComment | template => exact trivial
  | string | regex => exact breaksBehind_of_notMem noBreak
  | _ => exact noBreak

theorem notMem_take_numberLength (text : Text) : '\n' ∉ text.take (numberLength text) := by
  rw [numberLength_eq, Nat.add_comm, List.take_add, take_length_takeWhile, List.mem_append, not_or]
  refine ⟨notMem_takeWhile rfl text, ?_⟩
  generalize text.drop _ = after
  unfold fractionLength
  split
  · rename_i rest
    rw [List.take_succ_cons, take_length_takeWhile, List.mem_cons, not_or]
    exact ⟨by decide, notMem_takeWhile rfl rest⟩
  · simp

theorem punctuation?_ne_newline {char : Char} (noBreak : char ≠ '\n') :
    (punctuation? char).getD .invalid ≠ .newline := by
  unfold punctuation?
  split
  case h_1 => exact absurd rfl noBreak
  all_goals exact TokenKind.noConfusion

/-- Only a line feed is read as one. -/
theorem kind_readToken_ne_newline {first : Char} (noBreak : first ≠ '\n') (operandExpected : Bool)
    (rest : Text) : (readToken operandExpected first rest).1 ≠ .newline := by
  unfold readToken readSlash
  repeat' split
  all_goals first
    | exact TokenKind.noConfusion
    | exact punctuation?_ne_newline noBreak

theorem admitsBreaks_readSlash (operandExpected : Bool) (rest : Text) :
    (readSlash operandExpected rest).1.AdmitsBreaks
      ('/' :: rest.take (readSlash operandExpected rest).2) := by
  unfold readSlash
  split
  · rename_i body
    apply TokenKind.admitsBreaks_of_notMem _ TokenKind.noConfusion
    simp only [lineCommentLength, List.take_succ_cons, take_length_takeWhile, List.mem_cons, not_or]
    exact ⟨by decide, by decide, notMem_takeWhile (by simp) body⟩
  · exact trivial
  · split
    · rename_i length read
      cases operandExpected with
      | false => cases read
      | true =>
          have slash : BreaksBehind regexEscapes ['/'] := breaksBehind_of_notMem (by decide)
          exact slash.append (breaksBehind_regex read)
    · exact TokenKind.admitsBreaks_of_notMem (by simp) TokenKind.noConfusion

/-- **A token has no line feeds but those that its kind admits.** -/
theorem admitsBreaks_readToken (operandExpected : Bool) (first : Char) (rest : Text) :
    (readToken operandExpected first rest).1.AdmitsBreaks
      (first :: rest.take (readToken operandExpected first rest).2) := by
  by_cases isBreak : first = '\n'
  · subst isBreak
    exact rfl
  · have notNewline := kind_readToken_ne_newline isBreak operandExpected rest
    cases readsBy first with
    | slash isSlash reads =>
        subst isSlash
        rw [reads]
        exact admitsBreaks_readSlash operandExpected rest
    | equals isEquals reads =>
        subst isEquals
        by_cases isArrow : rest.head? = some '>'
        · obtain ⟨after, rfl⟩ := List.head?_eq_some_iff.mp isArrow
          rw [reads, if_pos isArrow]
          exact TokenKind.admitsBreaks_of_notMem (by simp) TokenKind.noConfusion
        · rw [reads, if_neg isArrow]
          exact TokenKind.admitsBreaks_of_notMem (by simp) TokenKind.noConfusion
    | string _ reads =>
        rw [reads]
        have quote : BreaksBehind stringEscapes [first] :=
          breaksBehind_of_notMem (by simpa using Ne.symm isBreak)
        exact quote.append (breaksBehind_quoted first rest)
    | template _ reads =>
        rw [reads]
        exact trivial
    | identifier _ reads =>
        rw [reads] at notNewline ⊢
        apply TokenKind.admitsBreaks_of_notMem _ notNewline
        rw [take_length_takeWhile, List.mem_cons, not_or]
        exact ⟨Ne.symm isBreak, notMem_takeWhile rfl rest⟩
    | number _ reads =>
        rw [reads] at notNewline ⊢
        apply TokenKind.admitsBreaks_of_notMem _ notNewline
        rw [List.mem_cons, not_or]
        exact ⟨Ne.symm isBreak, notMem_take_numberLength rest⟩
    | single kind _ reads =>
        rw [reads] at notNewline ⊢
        exact TokenKind.admitsBreaks_of_notMem (by simpa using Ne.symm isBreak) notNewline

/-! ## All tokens -/

theorem admitsBreaks_of_mem_tokensFrom {start : Nat} {operandExpected : Bool} {text : Text}
    {token : Token} (member : token ∈ tokensFrom start operandExpected text) :
    token.kind.AdmitsBreaks token.text := by
  fun_induction tokensFrom start operandExpected text with
  | case1 start operandExpected =>
      rw [List.mem_singleton.mp member]
      exact TokenKind.admitsBreaks_of_notMem List.not_mem_nil TokenKind.noConfusion
  | case2 start operandExpected first rest blank ih => exact ih member
  | case3 start operandExpected first rest noBlank kind length read first' ih =>
      rcases List.mem_cons.mp member with rfl | isLater
      · have admits := admitsBreaks_readToken operandExpected first rest
        rwa [read] at admits
      · exact ih isLater

/-- The end of the file stands where the text ends. -/
theorem Tiles.start_endOfFile {start : Nat} {text : Text} {tokens : List Token}
    (tiles : Tiles start text tokens) {token : Token} (member : token ∈ tokens)
    (isEnd : token.kind = .endOfFile) : token.start = start + text.byteLength := by
  induction tiles with
  | endOfFile areBlank => rw [List.mem_singleton.mp member]
  | @token start blanks rest first tokens areBlank place notEnd nonempty tiles ih =>
      rcases List.mem_cons.mp member with rfl | isLater
      · exact absurd isEnd notEnd
      · rw [ih isLater, Token.stop, place]
        simp [Nat.add_assoc]

/-- A character that is no blank is in a token. -/
theorem Tiles.exists_token_of_char {start : Nat} {text before after : Text} {char : Char}
    {tokens : List Token} (tiles : Tiles start text tokens) (noBlank : ¬ isBlank char)
    (whole : text = before ++ char :: after) :
    ∃ token ∈ tokens, ∃ head tail, token.text = head ++ char :: tail ∧
      token.start + head.byteLength = start + before.byteLength := by
  induction tiles generalizing before with
  | endOfFile areBlank =>
      subst whole
      exact absurd (areBlank char (by simp)) noBlank
  | @token start blanks rest token tokens areBlank place notEnd nonempty tiles ih =>
      rcases exists_of_append_eq_cons whole with ⟨tail, isBefore⟩ | ⟨head, isBefore, isRest⟩
      · rcases exists_of_append_eq_cons isBefore with ⟨more, isBlanks⟩ | ⟨head, rfl, isText⟩
        · exact absurd (areBlank char (by simp [isBlanks])) noBlank
        · refine ⟨token, List.mem_cons_self, head, tail, isText, ?_⟩
          rw [place, Text.byteLength_append, Nat.add_assoc]
      · obtain ⟨later, isLater, inside⟩ := ih isRest
        obtain ⟨front, tail, isText, laterPlace⟩ := inside
        refine ⟨later, List.mem_cons_of_mem token isLater, front, tail, isText, ?_⟩
        rw [laterPlace, isBefore, Token.stop, place]
        simp [Nat.add_assoc]

/-- A slash that begins neither a comment nor a regular expression is a division. -/
theorem readSlash_of_not_closes {operandExpected : Bool} {rest : Text}
    (noComment : rest.head? ≠ some '/' ∧ rest.head? ≠ some '*')
    (notClosed : ¬ Closes false rest.firstLine)
    (unbroken : (readSlash operandExpected rest).1 = .regex →
      '\n' ∉ rest.take (readSlash operandExpected rest).2) :
    readSlash operandExpected rest = (.slash, 0) := by
  rw [readSlash_of_noComment noComment.1 noComment.2] at unbroken ⊢
  split
  · rename_i length read
    rw [read] at unbroken
    cases operandExpected with
    | false => cases read
    | true => exact absurd (closes_of_regexLength? read (unbroken rfl)) notClosed
  · rfl

/-! ## Line feeds in their places -/

/-- Whether a token of a kind should have a line feed between two parts of its text. -/
def TokenKind.HoldsBreak (kind : TokenKind) (head tail : Text) : Prop :=
  kind = .newline ∧ head = [] ∧ tail = [] ∨ kind = .blockComment ∨ kind = .template ∨
    kind = .string ∧ (['\\'] <:+ head ∨ ['\\', '\r'] <:+ head)

/-- Each line feed of a text is in a token that should have it. -/
structure KeepsLineFeeds (source : Text) : Prop where
  /-- A line feed is a token of its own, or in a token that goes on over it. -/
  accounted : ∀ before after, source = before ++ '\n' :: after →
    ∃ token ∈ tokenize source, ∃ head tail, token.text = head ++ '\n' :: tail ∧
      token.start + head.byteLength = before.byteLength ∧ token.kind.HoldsBreak head tail
  /-- A regular expression, a line comment and an invalid token end before the line does. -/
  unbroken : ∀ token ∈ tokenize source, token.kind ∈ [.regex, .lineComment, .invalid] →
    '\n' ∉ token.text
  /-- A slash that is not closed on its line is a division, unless it begins a comment. -/
  divides : ∀ token ∈ tokenize source, ∀ before rest : Text, source = before ++ '/' :: rest →
    token.start = before.byteLength → rest.head? ≠ some '/' ∧ rest.head? ≠ some '*' →
      ¬ Closes false rest.firstLine → token.kind = .slash ∧ token.text = ['/']

theorem TokenKind.AdmitsBreaks.holdsBreak {kind : TokenKind} {head tail : Text}
    (admits : kind.AdmitsBreaks (head ++ '\n' :: tail)) :
    kind.HoldsBreak head tail ∨ kind = .regex ∧ ['\\'] <:+ head := by
  cases kind with
  | newline =>
      obtain ⟨rfl, isBreak⟩ | ⟨-, isNothing⟩ := List.append_eq_singleton_iff.mp admits
      · exact .inl (.inl ⟨rfl, rfl, (List.cons.inj isBreak).2⟩)
      · cases isNothing
  | blockComment => exact .inl (.inr (.inl rfl))
  | template => exact .inl (.inr (.inr (.inl rfl)))
  | string =>
      obtain ⟨escape, isEscape, ends⟩ := admits head tail rfl
      refine .inl (.inr (.inr (.inr ⟨rfl, ?_⟩)))
      rcases List.mem_pair.mp isEscape with rfl | rfl
      · exact .inl ends
      · exact .inr ends
  | regex =>
      obtain ⟨escape, isEscape, ends⟩ := admits head tail rfl
      rw [List.mem_singleton.mp isEscape] at ends
      exact .inr ⟨rfl, ends⟩
  | _ => exact absurd (List.mem_append_right head List.mem_cons_self) admits

/-- Each line feed is in a token that should have it, or else is hidden in a regular expression. -/
theorem exists_token_of_break {source before after : Text}
    (whole : source = before ++ '\n' :: after) :
    ∃ token ∈ tokenize source, ∃ head tail, token.text = head ++ '\n' :: tail ∧
      token.start + head.byteLength = before.byteLength ∧
        (token.kind.HoldsBreak head tail ∨ token.kind = .regex ∧ ['\\'] <:+ head) := by
  obtain ⟨token, member, head, tail, isText, place⟩ :=
    (tiles_tokensFrom 0 true source).exists_token_of_char (by decide) whole
  have admits := admitsBreaks_of_mem_tokensFrom member
  rw [isText] at admits
  rw [Nat.zero_add] at place
  exact ⟨token, member, head, tail, isText, place, admits.holdsBreak⟩

theorem divides_of_unbroken {source : Text}
    (unbroken : ∀ token ∈ tokenize source, token.kind = .regex → '\n' ∉ token.text)
    {token : Token} (member : token ∈ tokenize source) {before rest : Text}
    (whole : source = before ++ '/' :: rest) (place : token.start = before.byteLength)
    (noComment : rest.head? ≠ some '/' ∧ rest.head? ≠ some '*')
    (notClosed : ¬ Closes false rest.firstLine) : token.kind = .slash ∧ token.text = ['/'] := by
  have notEnd : token.kind ≠ .endOfFile := by
    intro isEnd
    have ends := (tiles_tokensFrom 0 true source).start_endOfFile member isEnd
    have slash := Char.utf8Size_pos '/'
    rw [place, whole, Text.byteLength_append, Text.byteLength_cons] at ends
    omega
  have oneLine := unbroken token member
  obtain ⟨earlier, later, lexed⟩ := List.append_of_mem member
  obtain ⟨front, first, more, length, wholeToo, placeToo, taken, read, -⟩ :=
    exists_read_of_tokensFrom notEnd lexed
  rw [place, Nat.zero_add] at placeToo
  obtain ⟨rfl, same⟩ := Text.append_inj_of_byteLength (whole.symm.trans wholeToo) placeToo
  obtain ⟨rfl, rfl⟩ := List.cons.inj same
  have isRead : readSlash (earlier.foldl operandExpectedAfter true) rest = (token.kind, length) :=
    read
  have divides := readSlash_of_not_closes noComment notClosed fun isRegex => by
    rw [isRead] at isRegex ⊢
    have noBreak := oneLine isRegex
    rw [taken] at noBreak
    exact mt (List.mem_cons_of_mem _) noBreak
  obtain ⟨isSlash, isEmpty⟩ := Prod.mk.inj (isRead.symm.trans divides)
  exact ⟨isSlash, by rw [taken, isEmpty, List.take_zero]⟩

theorem keepsLineFeeds_of_unbroken {source : Text}
    (oneLine : ∀ token ∈ tokenize source, token.kind = .regex → '\n' ∉ token.text) :
    KeepsLineFeeds source := by
  refine ⟨?accounted, ?unbroken, ?divides⟩
  case accounted =>
    intro before after whole
    obtain ⟨token, member, head, tail, isText, place, holds | ⟨isRegex, -⟩⟩ :=
      exists_token_of_break whole
    · exact ⟨token, member, head, tail, isText, place, holds⟩
    · exact absurd (by simp [isText]) (oneLine token member isRegex)
  case unbroken =>
    intro token member isKind
    have admits := admitsBreaks_of_mem_tokensFrom member
    simp only [List.mem_cons, List.not_mem_nil, or_false] at isKind
    rcases isKind with isRegex | isComment | isInvalid
    · exact oneLine token member isRegex
    · rwa [isComment] at admits
    · rwa [isInvalid] at admits
  case divides =>
    intro token member before rest
    exact divides_of_unbroken oneLine member

/-- Without a backslash right before a line feed no regular expression has a line feed. -/
theorem unbroken_of_noEscape {source : Text} (noEscape : ¬ ['\\', '\n'] <:+: source) :
    ∀ token ∈ tokenize source, token.kind = .regex → '\n' ∉ token.text := by
  intro token member isRegex hasBreak
  obtain ⟨head, tail, isText⟩ := List.append_of_mem hasBreak
  have admits := admitsBreaks_of_mem_tokensFrom member
  rw [isRegex] at admits
  obtain ⟨escape, isEscape, front, isHead⟩ := admits head tail isText
  rw [List.mem_singleton.mp isEscape] at isHead
  obtain ⟨before, after, whole, -⟩ := (tiles_tokensFrom 0 true source).exists_text_eq token member
  apply noEscape
  refine ⟨before ++ front, tail ++ after, ?_⟩
  rw [whole, isText, ← isHead]
  simp

/--
**Line feeds are kept in their places exactly if no regular expression has one.**  A line feed in a
regular expression stands behind a backslash, so there is none if no line of the text ends with a
backslash.
-/
theorem keepsLineFeeds_iff (source : Text) :
    (KeepsLineFeeds source ↔
        ∀ token ∈ tokenize source, token.kind = .regex → '\n' ∉ token.text) ∧
      (∀ before after, source = before ++ '\n' :: after →
        ∃ token ∈ tokenize source, ∃ head tail, token.text = head ++ '\n' :: tail ∧
          token.start + head.byteLength = before.byteLength ∧
            (token.kind.HoldsBreak head tail ∨ token.kind = .regex ∧ ['\\'] <:+ head)) ∧
      (¬ ['\\', '\n'] <:+: source → KeepsLineFeeds source) := by
  refine ⟨⟨?_, keepsLineFeeds_of_unbroken⟩, fun _ _ => exists_token_of_break, ?_⟩
  · intro kept token member isRegex
    apply kept.unbroken token member
    simp [isRegex]
  · intro noEscape
    exact keepsLineFeeds_of_unbroken (unbroken_of_noEscape noEscape)

/--
A line feed that is hidden in a string, those of a template and of a comment, and one of its own
behind a slash that nothing closes; with a carriage return, no line ends with a backslash alone.
-/
theorem keepsLineFeeds_iff_hidden :
    let hidden : Text := "'a\\\nb' / \x60\n\x60 /*\n*/ / 2\n+ /[/]/".toList
    let hiddenReturn : Text := "'a\\\r\nb' / 2\n".toList
    (∀ token ∈ tokenize hidden, token.kind = .regex → '\n' ∉ token.text) ∧
      KeepsLineFeeds hidden ∧ ['\\', '\n'] <:+: hidden ∧
      ¬ ['\\', '\n'] <:+: hiddenReturn ∧ KeepsLineFeeds hiddenReturn ∧
      ∃ token ∈ tokenize hiddenReturn, ∃ head tail, token.text = head ++ '\n' :: tail ∧
        token.start + head.byteLength = Text.byteLength "'a\\\r".toList ∧
          (token.kind.HoldsBreak head tail ∨ token.kind = .regex ∧ ['\\'] <:+ head) := by
  intro hidden hiddenReturn
  have oneLine : ∀ token ∈ tokenize hidden, token.kind = .regex → '\n' ∉ token.text := by
    decide +kernel
  have noEscape : ¬ ['\\', '\n'] <:+: hiddenReturn := by decide +kernel
  have whole : hiddenReturn = "'a\\\r".toList ++ '\n' :: "b' / 2\n".toList := by decide
  refine ⟨oneLine, (keepsLineFeeds_iff hidden).1.mpr oneLine, by decide +kernel, noEscape, ?_, ?_⟩
  · exact (keepsLineFeeds_iff hiddenReturn).2.2 noEscape
  · exact (keepsLineFeeds_iff hiddenReturn).2.1 _ _ whole

/-- A backslash hides a line feed in a regular expression, which does not end before the line. -/
theorem not_keepsLineFeeds_regex : ¬ KeepsLineFeeds "/\\\n/".toList := by
  intro keeps
  have member : (⟨.regex, 0, "/\\\n/".toList⟩ : Token) ∈ tokenize "/\\\n/".toList := by
    decide +kernel
  exact keeps.unbroken _ member (by decide) (by decide)

end ComponentTsx
