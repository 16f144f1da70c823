import ComponentTsx.Proofs.Literal.LineEndings
import ComponentTsx.Proofs.Token.Relocation
import Mathlib.Data.List.Forall2

/-!
# Tokens of a text with carriage returns

The readings of a text and of the same text with carriage returns before its
line feeds go on in step.  A carriage return between tokens is a blank, and one
that ends a comment or an unclosed string is the last character of that token,
so the tokens go together one by one (`tokensFrom_crlf`).

Two readings can fall out of step.  A slash begins a regular expression with a
line feed hidden in it, but with the carriage return before the line feed it is
a division (`ReadsAlike.divided`), and a template ends elsewhere if a string in
one of its substitutions hides a line feed.
-/

namespace ComponentTsx

set_option autoImplicit false

open Text

/-! ## One token -/

/--
What the texts of a token have in common with and without carriage returns.  A word stays the same,
and so does a string that is closed and has neither escapes nor quotes in it; any other string stays
the same or has a carriage return in it.
-/
structure TextsAlike (kind : TokenKind) (text other : Text) : Prop where
  word : kind = .identifier → other = text
  regex : kind = .regex → '\n' ∉ text
  string : kind = .string → other = text ∨ '\r' ∈ other
  closed : kind = .string → ∀ quote body, Literal.IsPlain body → text = quote :: (body ++ [quote]) →
    other = text

/-- Tokens of other kinds may have any texts. -/
theorem TextsAlike.of_kind {kind : TokenKind} (other : kind ∉ [.identifier, .regex, .string])
    (first second : Text) : TextsAlike kind first second := by
  simp only [List.mem_cons, List.not_mem_nil, or_false, not_or] at other
  obtain ⟨noWord, noRegex, noString⟩ := other
  exact ⟨fun isWord => absurd isWord noWord, fun isRegex => absurd isRegex noRegex,
    fun isString => absurd isString noString, fun isString => absurd isString noString⟩

/-- How a token that is read with carriage returns goes with the one read without them. -/
inductive ReadsAlike (first : Char) (rest : Text) (read other : TokenKind × Nat) : Prop where
  /-- A token of the same kind, which ends at the same place. -/
  | alike (kind : other.1 = read.1) (place : Literal.SamePlace rest read.2 other.2)
      (texts : TextsAlike read.1 (first :: rest.take read.2) (first :: (crlf rest).take other.2))
  /-- A slash in place of a regular expression with a line feed hidden in it. -/
  | divided (isRegex : read.1 = .regex) (hidden : '\n' ∈ rest.take read.2)
      (isSlash : other = (.slash, 0))

/-- Tokens of other kinds only have to end at the same place. -/
theorem ReadsAlike.of_kind {first : Char} {rest : Text} {kind : TokenKind} {length other : Nat}
    (isOther : kind ∉ [.identifier, .regex, .string])
    (place : Literal.SamePlace rest length other) :
    ReadsAlike first rest (kind, length) (kind, other) :=
  .alike rfl place (.of_kind isOther _ _)

theorem readSlash_crlf (operandExpected : Bool) {rest : Text} (noReturn : '\r' ∉ rest) :
    ReadsAlike '/' rest (readSlash operandExpected rest)
      (readSlash operandExpected (crlf rest)) := by
  by_cases isLine : rest.head? = some '/'
  · obtain ⟨body, rfl⟩ := List.head?_eq_some_iff.mp isLine
    rw [crlf_cons (by decide)]
    exact .of_kind (by decide) ((Literal.samePlace_lineComment body).cons (by decide))
  by_cases isBlock : rest.head? = some '*'
  · obtain ⟨body, rfl⟩ := List.head?_eq_some_iff.mp isBlock
    rw [crlf_cons (by decide)]
    exact .of_kind (by decide)
      ((Literal.SamePlace.same (Literal.keepsPlace_blockComment body)).cons (by decide))
  have division : ReadsAlike '/' rest (.slash, 0) (.slash, 0) :=
    .of_kind (by decide) (.zero rest)
  rw [readSlash_of_noComment isLine isBlock, readSlash_of_noComment
    (mt (head?_crlf (by decide) (by decide)).mp isLine)
    (mt (head?_crlf (by decide) (by decide)).mp isBlock)]
  cases operandExpected with
  | false => exact division
  | true =>
      rw [if_pos rfl, if_pos rfl, Literal.regexLength?_crlf false noReturn]
      cases found : Literal.regexLength? false rest with
      | none => exact division
      | some length =>
          rw [Option.bind_some]
          by_cases hidden : '\n' ∈ rest.take length
          · rw [if_pos hidden]
            exact .divided rfl hidden rfl
          · rw [if_neg hidden]
            have inside := Literal.regexLength?_le false rest length found
            refine .alike rfl (.same ?_) ⟨TokenKind.noConfusion, fun _ => ?_,
              TokenKind.noConfusion, TokenKind.noConfusion⟩
            · rw [crlf_of_notMem hidden, List.length_take, Nat.min_eq_left inside]
            · simpa using hidden

/-- A string has the same text or more carriage returns. -/
theorem readsAlike_string {first : Char} (isQuote : first = '\'' ∨ first = '"') {rest : Text}
    (noReturn : '\r' ∉ rest) :
    ReadsAlike first rest (.string, Literal.quotedLength first rest)
      (.string, Literal.quotedLength first (crlf rest)) := by
  have place := Literal.samePlace_quoted isQuote noReturn
  refine .alike rfl place ⟨TokenKind.noConfusion, TokenKind.noConfusion, fun _ => ?_,
    fun _ quote body plain isText => ?_⟩
  · rcases place.take_crlf with taken | taken
    · by_cases hidden : '\n' ∈ rest.take (Literal.quotedLength first rest)
      · exact .inr (List.mem_cons_of_mem first (taken ▸ return_mem_crlf hidden))
      · exact .inl (by rw [taken, crlf_of_notMem hidden])
    · exact .inr (by simp [taken])
  · obtain ⟨rfl, taken⟩ := List.cons.inj isText
    obtain ⟨more, rfl⟩ : ∃ more, rest = body ++ [first] ++ more := by
      refine ⟨rest.drop (Literal.quotedLength first rest), ?_⟩
      rw [← taken, List.take_append_drop]
    have noBreak : first ≠ '\n' := by
      rcases isQuote with rfl | rfl <;> decide
    have sameBegin : crlf (body ++ [first] ++ more) = body ++ [first] ++ crlf more := by
      rw [crlf_append, crlf_append, plain.crlf_eq, crlf_cons noBreak, crlf_nil]
    have takenToo : (crlf (body ++ [first] ++ more)).take
        (Literal.quotedLength first (crlf (body ++ [first] ++ more))) = body ++ [first] := by
      rw [sameBegin, Literal.quotedLength_closed isQuote (plain.ne_quote isQuote), List.take_left]
    exact congrArg (first :: ·) (takenToo.trans taken.symm)

/-- A word has the same text, since no word goes on at a line break. -/
theorem readsAlike_identifier (first : Char) (rest : Text) :
    ReadsAlike first rest (.identifier, (rest.takeWhile continuesIdentifier).length)
      (.identifier, ((crlf rest).takeWhile continuesIdentifier).length) := by
  have place : ((crlf rest).takeWhile continuesIdentifier).length =
      (crlf (rest.take (rest.takeWhile continuesIdentifier).length)).length :=
    Literal.keepsPlace_takeWhile rfl rfl rest
  have noBreak : '\n' ∉ rest.take (rest.takeWhile continuesIdentifier).length := by
    rw [← List.prefix_iff_eq_take.mp (List.takeWhile_prefix _)]
    exact fun member => absurd (List.mem_takeWhile_imp member) (by decide)
  refine .alike rfl (.same place) ⟨fun _ => ?_, TokenKind.noConfusion, TokenKind.noConfusion,
    TokenKind.noConfusion⟩
  simp only [place]
  rw [take_crlf, crlf_of_notMem noBreak]

theorem readToken_crlf (operandExpected : Bool) (first : Char) {rest : Text}
    (noReturn : '\r' ∉ rest)
    (unbroken : first = '\x60' → ∀ string ∈ Literal.templateStrings rest, '\n' ∉ string) :
    ReadsAlike first rest (readToken operandExpected first rest)
      (readToken operandExpected first (crlf rest)) := by
  cases readsBy first with
  | slash isSlash reads =>
      rw [reads, reads, isSlash]
      exact readSlash_crlf operandExpected noReturn
  | equals _ reads =>
      have sameNext : (crlf rest).head? = some '>' ↔ rest.head? = some '>' :=
        head?_crlf (by decide) (by decide)
      rw [reads, reads]
      by_cases isArrow : rest.head? = some '>'
      · rw [if_pos isArrow, if_pos (sameNext.mpr isArrow)]
        obtain ⟨body, rfl⟩ := List.head?_eq_some_iff.mp isArrow
        exact .of_kind (by decide) ((Literal.SamePlace.zero body).cons (by decide))
      · rw [if_neg isArrow, if_neg (mt sameNext.mp isArrow)]
        exact .of_kind (by decide) (.zero rest)
  | string isQuote reads =>
      rw [reads, reads]
      exact readsAlike_string isQuote noReturn
  | template isBacktick reads =>
      have keeps := Literal.enclosedLength_crlf noReturn (unbroken isBacktick)
      simp only [← Literal.templateLength_eq] at keeps
      rw [reads, reads]
      exact .of_kind (by decide) (.same keeps)
  | identifier _ reads =>
      rw [reads, reads]
      exact readsAlike_identifier first rest
  | number _ reads =>
      rw [reads, reads]
      exact .of_kind (by decide) (.same (Literal.keepsPlace_number rest))
  | single kind isSingle reads =>
      rw [reads, reads]
      exact .of_kind (by simp_all) (.zero rest)

/-! ## All tokens -/

/-- A token and the one in its place with carriage returns in the text. -/
structure Token.Alike (token other : Token) : Prop where
  kind : other.kind = token.kind
  texts : TextsAlike token.kind token.text other.text

theorem Token.Alike.operandExpectedAfter {token other : Token} (alike : token.Alike other)
    (expectedBefore : Bool) :
    ComponentTsx.operandExpectedAfter expectedBefore other =
      ComponentTsx.operandExpectedAfter expectedBefore token := by
  by_cases isWord : token.kind = .identifier
  · have sameText := alike.texts.word isWord
    simp only [ComponentTsx.operandExpectedAfter, alike.kind, Token.isOneOf, Token.isWord, sameText]
  · unfold ComponentTsx.operandExpectedAfter
    rw [alike.kind]
    split <;> simp_all

/-- How tokens go with those of the text with carriage returns. -/
inductive TokensAlike (tokens others : List Token) : Prop where
  /-- They go together one by one. -/
  | alike (each : List.Forall₂ Token.Alike tokens others)
  /-- A line feed is hidden in a regular expression, in place of which there is a slash. -/
  | divided (token : Token) (member : token ∈ tokens) (isRegex : token.kind = .regex)
      (hidden : '\n' ∈ token.text) (differ : others.map Token.kind ≠ tokens.map Token.kind)

namespace TokensAlike

variable {tokens others : List Token}

theorem cons {token other : Token} (alike : token.Alike other)
    (later : TokensAlike tokens others) : TokensAlike (token :: tokens) (other :: others) := by
  cases later with
  | alike each => exact .alike (.cons alike each)
  | divided later member isRegex hidden differ =>
      refine .divided later (List.mem_cons_of_mem token member) isRegex hidden fun same => ?_
      exact differ (List.cons.inj same).2

/-- Tokens with no line feed hidden in a regular expression go together one by one. -/
theorem each (together : TokensAlike tokens others)
    (unbroken : ∀ token ∈ tokens, token.kind = .regex → '\n' ∉ token.text) :
    List.Forall₂ Token.Alike tokens others := by
  cases together with
  | alike each => exact each
  | divided token member isRegex hidden => exact absurd hidden (unbroken token member isRegex)

/-- The tokens are of the same kinds exactly if no line feed is hidden in a regular expression. -/
theorem kinds_eq_iff (together : TokensAlike tokens others) :
    others.map Token.kind = tokens.map Token.kind ↔
      ∀ token ∈ tokens, token.kind = .regex → '\n' ∉ token.text := by
  constructor
  · intro same
    cases together with
    | divided _ _ _ _ differ => exact absurd same differ
    | alike each =>
        clear same
        induction each with
        | nil => exact fun token member => nomatch member
        | cons alike _ ih => exact List.forall_mem_cons.mpr ⟨alike.texts.regex, ih⟩
  · intro unbroken
    have each := together.each unbroken
    clear together unbroken
    induction each with
    | nil => rfl
    | cons alike _ ih => rw [List.map_cons, List.map_cons, alike.kind, ih]

end TokensAlike

/-- Reading resumes at the same place, before or behind a carriage return. -/
theorem exists_tokensFrom_drop_crlf {rest : Text} {length other stop : Nat}
    (place : Literal.SamePlace rest length other) (positive : 0 < stop) (operandExpected : Bool) :
    ∃ start, tokensFrom stop operandExpected ((crlf rest).drop other) =
      tokensFrom start operandExpected (crlf (rest.drop length)) := by
  cases place with
  | same isLength => exact ⟨stop, by rw [isLength, drop_crlf]⟩
  | atBreak more stops isLength =>
      obtain ⟨before, rfl⟩ := Nat.exists_eq_add_one.mpr positive
      refine ⟨before, ?_⟩
      rw [stops, crlf_break, tokensFrom_blank (by decide), isLength, ← List.drop_drop, drop_crlf,
        stops, crlf_break]
      rfl

/-- The strings in the substitutions of a template of a source, their quotes included. -/
def Token.substitutionStrings (source : Text) (token : Token) : List Text :=
  Literal.templateStrings ((source.dropBytes? (token.start + 1)).getD [])

theorem Token.substitutionStrings_append (before rest : Text) {token : Token}
    (place : token.start = before.byteLength) :
    token.substitutionStrings (before ++ '\x60' :: rest) = Literal.templateStrings rest := by
  have whole : before ++ '\x60' :: rest = (before ++ ['\x60']) ++ rest := by simp
  have stop : token.start + 1 = Text.byteLength (before ++ ['\x60']) := by
    rw [place, Text.byteLength_append]
    rfl
  rw [substitutionStrings, whole, stop, dropBytes?_append, Option.getD_some]

/-- A token that begins with no line feed, and all tokens after it. -/
theorem tokensFrom_crlf_cons {first : Char} {rest : Text} (noBreak : first ≠ '\n')
    (noBlank : ¬ isBlank first) {start length : Nat} {kind : TokenKind} {operandExpected : Bool}
    (read : readToken operandExpected first rest = (kind, length)) (other : Nat)
    (reads : ReadsAlike first rest (kind, length) (readToken operandExpected first (crlf rest)))
    (later : ∀ other, TokensAlike
      (tokensFrom (start + Text.byteLength (first :: rest.take length))
        (operandExpectedAfter operandExpected ⟨kind, start, first :: rest.take length⟩)
        (rest.drop length))
      (tokensFrom other
        (operandExpectedAfter operandExpected ⟨kind, start, first :: rest.take length⟩)
        (crlf (rest.drop length)))) :
    TokensAlike (tokensFrom start operandExpected (first :: rest))
      (tokensFrom other operandExpected (crlf (first :: rest))) := by
  obtain ⟨⟨otherKind, otherLength⟩, readToo⟩ : ∃ pair,
      readToken operandExpected first (crlf rest) = pair := ⟨_, rfl⟩
  rw [readToo] at reads
  rw [crlf_cons noBreak, tokensFrom_token noBlank read, tokensFrom_token noBlank readToo]
  cases reads with
  | alike sameKind samePlace texts =>
      have alike : Token.Alike ⟨kind, start, first :: rest.take length⟩
          ⟨otherKind, other, first :: (crlf rest).take otherLength⟩ := ⟨sameKind, texts⟩
      have positive : 0 < other + Text.byteLength (first :: (crlf rest).take otherLength) :=
        Nat.add_pos_right _ (Text.byteLength_pos_iff.mpr (List.cons_ne_nil _ _))
      rw [alike.operandExpectedAfter]
      obtain ⟨resumed, same⟩ := exists_tokensFrom_drop_crlf samePlace positive
        (operandExpectedAfter operandExpected ⟨kind, start, first :: rest.take length⟩)
      rw [same]
      exact .cons alike (later resumed)
  | divided isRegex hidden isSlash =>
      refine .divided _ List.mem_cons_self isRegex (List.mem_cons_of_mem first hidden) ?_
      intro same
      have sameKind : otherKind = kind := (List.cons.inj same).1
      cases isRegex
      cases isSlash
      cases sameKind

/-- A line feed, the carriage return before which is a blank, and all tokens after it. -/
theorem tokensFrom_crlf_break {rest : Text} {start other : Nat} {operandExpected : Bool}
    (later : ∀ other, TokensAlike (tokensFrom (start + 1) operandExpected rest)
      (tokensFrom other operandExpected (crlf rest))) :
    TokensAlike (tokensFrom start operandExpected ('\n' :: rest))
      (tokensFrom other operandExpected (crlf ('\n' :: rest))) := by
  have newline (rest : Text) : readToken operandExpected '\n' rest = (.newline, 0) := rfl
  have returnIsBlank : isBlank '\r' := by decide
  rw [crlf_break, tokensFrom_blank returnIsBlank, tokensFrom_token (by decide) (newline rest),
    tokensFrom_token (by decide) (newline (crlf rest))]
  exact .cons ⟨rfl, .of_kind (by simp) _ _⟩ (later _)

/--
**The tokens of a text and of the text with carriage returns go together one by one**, unless a line
feed is hidden in a regular expression.
-/
theorem tokensFrom_crlf (before : Text) {text : Text} (noReturn : '\r' ∉ text) {start : Nat}
    (place : start = before.byteLength) (other : Nat) (operandExpected : Bool)
    (unbroken : ∀ token ∈ tokensFrom start operandExpected text, token.kind = .template →
      ∀ string ∈ token.substitutionStrings (before ++ text), '\n' ∉ string) :
    TokensAlike (tokensFrom start operandExpected text)
      (tokensFrom other operandExpected (crlf text)) := by
  -- The other reading may begin at any offset: it is behind by one after a blank carriage return.
  induction size : text.length using Nat.strongRecOn
    generalizing before text start other operandExpected with
  | ind size ih =>
  subst size
  match text with
  | [] =>
      rw [crlf_nil, tokensFrom_nil, tokensFrom_nil]
      exact .alike (.cons ⟨rfl, .of_kind (by simp) _ _⟩ .nil)
  | first :: rest =>
      rw [List.mem_cons, not_or] at noReturn
      by_cases blank : isBlank first
      · have noBreak : first ≠ '\n' := by
          rintro rfl
          exact absurd blank (by decide)
        have stop : start + first.utf8Size = Text.byteLength (before ++ [first]) := by
          rw [place, Text.byteLength_append]
          rfl
        rw [crlf_cons noBreak, tokensFrom_blank blank]
        rw [tokensFrom_blank blank] at unbroken ⊢
        refine ih rest.length (Nat.lt_succ_self _) _ noReturn.2 stop _ _ ?_ rfl
        simpa using unbroken
      · obtain ⟨⟨kind, length⟩, read⟩ : ∃ pair, readToken operandExpected first rest = pair :=
          ⟨_, rfl⟩
        rw [tokensFrom_token blank read] at unbroken
        have stop : start + Text.byteLength (first :: rest.take length) =
            Text.byteLength (before ++ first :: rest.take length) := by
          rw [place, Text.byteLength_append]
        have noReturnLater : '\r' ∉ rest.drop length := fun member =>
          noReturn.2 (List.mem_of_mem_drop member)
        have whole : before ++ first :: rest.take length ++ rest.drop length =
            before ++ first :: rest := by
          rw [List.append_assoc, List.cons_append, List.take_append_drop]
        have later (other : Nat) := ih _ (Literal.length_drop_lt _ rest 0) _ noReturnLater stop
          other (operandExpectedAfter operandExpected ⟨kind, start, first :: rest.take length⟩)
          (fun token member => whole ▸ unbroken token (List.mem_cons_of_mem _ member)) rfl
        by_cases isBreak : first = '\n'
        · subst isBreak
          have isNewline : (TokenKind.newline, 0) = (kind, length) := read
          obtain ⟨rfl, rfl⟩ := Prod.mk.inj isNewline
          exact tokensFrom_crlf_break later
        · have reads := readToken_crlf operandExpected first noReturn.2 (by
            rintro rfl
            have isTemplate : kind = .template := (congrArg Prod.fst read).symm
            have own := unbroken _ List.mem_cons_self isTemplate
            rwa [Token.substitutionStrings_append before rest place] at own)
          exact tokensFrom_crlf_cons isBreak blank read other (read ▸ reads) later

end ComponentTsx
