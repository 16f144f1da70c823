import ComponentTsx.Proofs.Literal.LineEndings
import ComponentTsx.Proofs.Token.Words

/-!
# Spelling tokens

A word, a string literal or a mark is read back from a text wherever what stands
behind it does not go on with it (`exists_tokensFrom_lexeme`).  That can only
happen to a word, so tokens need nothing between them unless they are both
words.  What may stand between tokens are blanks, block comments and, in some
places, line breaks; the lexer reads no more of it than comments and line breaks
(`exists_tokensFrom_gap`).
-/

namespace ComponentTsx

set_option autoImplicit false

/-! ## Tokens to be written -/

/-- A string literal in which nothing is hidden by a backslash. -/
structure StringLiteral where
  quote : Char
  content : Text
  isQuote : quote = '\'' ∨ quote = '"'
  inside : ∀ char ∈ content, char ≠ '\\' ∧ char ≠ '\n' ∧ char ≠ quote

/-- The literal with its quotes. -/
def StringLiteral.text (literal : StringLiteral) : Text :=
  literal.quote :: (literal.content ++ [literal.quote])

/-- A token to be written: a word, a string literal or a mark of one character. -/
inductive Lexeme where
  | word (text : Text) (isWord : text.isWord)
  | string (literal : StringLiteral)
  | mark (char : Char) (kind : TokenKind) (isMark : punctuation? char = some kind)
      (noBreak : kind ≠ .newline)

namespace Lexeme

def kind : Lexeme → TokenKind
  | word _ _ => .identifier
  | string _ => .string
  | mark _ kind _ _ => kind

def text : Lexeme → Text
  | word text _ => text
  | string literal => literal.text
  | mark char _ _ _ => [char]

/-- The token that the lexeme is at a byte offset. -/
def token (lexeme : Lexeme) (start : Nat) : Token := ⟨lexeme.kind, start, lexeme.text⟩

/-- What a mark can be. -/
theorem kind_of_punctuation? {char : Char} {kind : TokenKind}
    (isMark : punctuation? char = some kind) :
    kind.isTrivia = false ∧ kind ≠ .endOfFile ∧ kind ≠ .identifier ∧
      beginsIdentifier char = false ∧ continuesIdentifier char = false := by
  unfold punctuation? at isMark
  split at isMark
  all_goals first
    | cases isMark
      decide
    | cases isMark

theorem isTrivia_kind (lexeme : Lexeme) : lexeme.kind.isTrivia = false := by
  cases lexeme with
  | word => rfl
  | string => rfl
  | mark char kind isMark => exact (kind_of_punctuation? isMark).1

theorem kind_ne_endOfFile (lexeme : Lexeme) : lexeme.kind ≠ .endOfFile := by
  cases lexeme with
  | word => exact TokenKind.noConfusion
  | string => exact TokenKind.noConfusion
  | mark char kind isMark => exact (kind_of_punctuation? isMark).2.1

theorem kind_ne_newline (lexeme : Lexeme) : lexeme.kind ≠ .newline := by
  cases lexeme with
  | word => exact TokenKind.noConfusion
  | string => exact TokenKind.noConfusion
  | mark char kind isMark noBreak => exact noBreak

/-- A lexeme other than a word does not go on with a word. -/
theorem not_continuesIdentifier_head (lexeme : Lexeme) (noWord : lexeme.kind ≠ .identifier)
    (rest : Text) : ∀ char ∈ (lexeme.text ++ rest).head?, ¬ continuesIdentifier char := by
  cases lexeme with
  | word => exact absurd rfl noWord
  | string literal =>
      rintro _ ⟨⟩
      rcases literal.isQuote with isQuote | isQuote <;> rw [isQuote] <;> decide
  | mark char kind isMark =>
      rintro _ ⟨⟩
      simp [(kind_of_punctuation? isMark).2.2.2.2]

end Lexeme

/-! ## Reading one token -/

theorem readToken_mark {char : Char} {kind : TokenKind} (isMark : punctuation? char = some kind)
    (operandExpected : Bool) (rest : Text) :
    readToken operandExpected char rest = (kind, 0) ∧ ¬ isBlank char := by
  unfold punctuation? at isMark
  split at isMark
  all_goals first
    | cases isMark
      exact ⟨rfl, by decide⟩
    | cases isMark

theorem readToken_string (literal : StringLiteral) (operandExpected : Bool) (rest : Text) :
    readToken operandExpected literal.quote (literal.content ++ [literal.quote] ++ rest) =
      (.string, (literal.content ++ [literal.quote]).length) ∧ ¬ isBlank literal.quote := by
  have length := Literal.quotedLength_closed literal.isQuote literal.inside rest
  rcases literal.isQuote with isQuote | isQuote
  · rw [isQuote] at length ⊢
    exact ⟨congrArg _ length, by decide⟩
  · rw [isQuote] at length ⊢
    exact ⟨congrArg _ length, by decide⟩

/-- **A lexeme is read back** before a text that does not go on with it. -/
theorem exists_tokensFrom_lexeme (lexeme : Lexeme) (rest : Text)
    (ends : lexeme.kind = .identifier → ∀ char ∈ rest.head?, ¬ continuesIdentifier char)
    (start : Nat) (operandExpected : Bool) :
    ∃ expectedAfter, tokensFrom start operandExpected (lexeme.text ++ rest) =
      lexeme.token start :: tokensFrom (start + lexeme.text.byteLength) expectedAfter rest := by
  cases lexeme with
  | word text isWord => exact tokensFrom_word isWord (ends rfl) start operandExpected
  | string literal =>
      obtain ⟨read, noBlank⟩ := readToken_string literal operandExpected rest
      rw [Lexeme.text, StringLiteral.text, List.cons_append, tokensFrom_token noBlank read,
        List.take_left, List.drop_left]
      exact ⟨_, rfl⟩
  | mark char kind isMark =>
      obtain ⟨read, noBlank⟩ := readToken_mark isMark operandExpected rest
      exact ⟨_, tokensFrom_token noBlank read start⟩

/-! ## Reading what stands between tokens -/

/-- Blanks and block comments between tokens, and line breaks if they are allowed there. -/
inductive IsGap (breaks : Prop) : Text → Prop
  | nil : IsGap breaks []
  | blank {char : Char} {rest : Text} (isBlank : isBlank char) (later : IsGap breaks rest) :
      IsGap breaks (char :: rest)
  | comment {body rest : Text} (closed : ¬ ['*', '/'] <:+: body) (later : IsGap breaks rest) :
      IsGap breaks ('/' :: '*' :: (body ++ '*' :: '/' :: rest))
  | lineBreak {rest : Text} (allowed : breaks) (later : IsGap breaks rest) :
      IsGap breaks ('\n' :: rest)

theorem IsGap.mono {breaks allowed : Prop} (implies : breaks → allowed) {gap : Text}
    (isGap : IsGap breaks gap) : IsGap allowed gap := by
  induction isGap with
  | nil => exact .nil
  | blank isBlank _ ih => exact .blank isBlank ih
  | comment closed _ ih => exact .comment closed ih
  | lineBreak here _ ih => exact .lineBreak (implies here) ih

theorem blockCommentLength_closed {body : Text} (closed : ¬ ['*', '/'] <:+: body) (rest : Text) :
    Literal.blockCommentLength (body ++ '*' :: '/' :: rest) = (body ++ ['*', '/']).length := by
  induction body with
  | nil => rfl
  | cons char body ih =>
      have later := ih fun inside => closed (inside.trans (List.suffix_cons char body).isInfix)
      rw [List.cons_append, Literal.blockCommentLength, later]
      · rfl
      · rintro after rfl goesOn
        cases body with
        | nil => cases goesOn
        | cons next body =>
            cases goesOn
            exact closed ⟨[], body, rfl⟩

/-- A line comment stops before the line feed that ends it, or with the text. -/
theorem lineCommentLength_closed {body : Text} (oneLine : '\n' ∉ body) {rest : Text}
    (ends : ∀ next ∈ rest.head?, next = '\n') :
    Literal.lineCommentLength (body ++ rest) = body.length := by
  have inside : ∀ char ∈ body, decide (char ≠ '\n') = true := by
    intro char member
    exact decide_eq_true fun isBreak => oneLine (isBreak ▸ member)
  rw [Literal.lineCommentLength, List.takeWhile_append_of_pos inside]
  cases rest with
  | nil => simp
  | cons next rest => simp [ends next rfl]

/-- Whether a text does not go on with a word or with an equals sign. -/
def StandsApart (text : Text) : Prop :=
  ∀ char ∈ text.head?, ¬ continuesIdentifier char ∧ char ≠ '>'

/-- What stands between tokens goes on with none of them. -/
theorem IsGap.standsApart {breaks : Prop} {gap : Text} (isGap : IsGap breaks gap)
    (nonempty : gap ≠ []) (rest : Text) : StandsApart (gap ++ rest) := by
  cases isGap with
  | nil => exact absurd rfl nonempty
  | blank isBlank =>
      rintro _ ⟨⟩
      simp only [ComponentTsx.isBlank, Bool.or_eq_true, decide_eq_true_eq] at isBlank
      rcases isBlank with (((rfl | rfl) | rfl) | rfl) | rfl <;> decide
  | comment =>
      rintro _ ⟨⟩
      decide
  | lineBreak =>
      rintro _ ⟨⟩
      decide

/--
**Comments and line breaks are all that is read between tokens.**  Without line breaks the gap is
one that stays on its line.
-/
theorem exists_tokensFrom_gap {breaks : Prop} {gap : Text} (isGap : IsGap breaks gap)
    (start : Nat) (operandExpected : Bool) (rest : Text) :
    ∃ between expectedAfter, tokensFrom start operandExpected (gap ++ rest) =
        between ++ tokensFrom (start + gap.byteLength) expectedAfter rest ∧
      (∀ token ∈ between, token.kind.isTrivia ∨ breaks ∧ token.kind = .newline) ∧
      ((∀ token ∈ between, token.kind ≠ .newline) → IsGap False gap) := by
  induction isGap generalizing start operandExpected with
  | nil => exact ⟨[], operandExpected, rfl, by simp, fun _ => .nil⟩
  | @blank char later isBlank _ ih =>
      obtain ⟨between, expectedAfter, lexed, plain, onLine⟩ :=
        ih (start + char.utf8Size) operandExpected
      refine ⟨between, expectedAfter, ?_, plain, fun noBreak => .blank isBlank (onLine noBreak)⟩
      rw [List.cons_append, tokensFrom_blank isBlank, lexed, Text.byteLength_cons, Nat.add_assoc]
  | @comment body later closed _ ih =>
      have length := blockCommentLength_closed closed (later ++ rest)
      have read : readToken operandExpected '/' ('*' :: (body ++ ['*', '/'] ++ (later ++ rest))) =
          (.blockComment, (body ++ ['*', '/']).length + 1) := by
        rw [List.append_assoc]
        exact congrArg (fun length => (TokenKind.blockComment, length + 1)) length
      have whole : '/' :: '*' :: (body ++ '*' :: '/' :: later) ++ rest =
          '/' :: '*' :: (body ++ ['*', '/'] ++ (later ++ rest)) := by
        simp
      rw [whole, tokensFrom_token (by decide) read, List.take_succ_cons, List.drop_succ_cons,
        List.take_left, List.drop_left]
      obtain ⟨between, expectedAfter, lexed, plain, onLine⟩ := ih
        (start + Text.byteLength ('/' :: '*' :: (body ++ ['*', '/'])))
        (operandExpectedAfter operandExpected
          ⟨.blockComment, start, '/' :: '*' :: (body ++ ['*', '/'])⟩)
      have length : Text.byteLength ('/' :: '*' :: (body ++ '*' :: '/' :: later)) =
          Text.byteLength ('/' :: '*' :: (body ++ ['*', '/'])) + Text.byteLength later := by
        rw [← Text.byteLength_append]
        simp
      refine ⟨⟨.blockComment, start, '/' :: '*' :: (body ++ ['*', '/'])⟩ :: between,
        expectedAfter, ?_, List.forall_mem_cons.mpr ⟨.inl rfl, plain⟩,
        fun noBreak => .comment closed (onLine (List.forall_mem_cons.mp noBreak).2)⟩
      rw [length, ← Nat.add_assoc, List.cons_append, ← lexed]
  | @lineBreak later allowed _ ih =>
      have read : readToken operandExpected '\n' (later ++ rest) = (.newline, 0) := rfl
      obtain ⟨between, expectedAfter, lexed, plain, _⟩ := ih (start + 1) operandExpected
      refine ⟨⟨.newline, start, ['\n']⟩ :: between, expectedAfter, ?_,
        List.forall_mem_cons.mpr ⟨.inr ⟨allowed, rfl⟩, plain⟩,
        fun noBreak => absurd rfl (List.forall_mem_cons.mp noBreak).1⟩
      have length : start + Text.byteLength ('\n' :: later) =
          start + 1 + Text.byteLength later := by
        rw [Text.byteLength_cons, ← Nat.add_assoc]
        rfl
      rw [List.cons_append, tokensFrom_token (by decide) read, length]
      exact congrArg (_ :: ·) lexed

end ComponentTsx
