import ComponentTsx.Proofs.Token.Bounds
import Mathlib.Data.List.Chain

/-!
# Tokens tile their text

A text is a row of tokens with blanks between them, and the end of the file
closes the row (`Tiles`).  What the lexer yields for a text tiles it
(`tiles_tokensFrom`), so tokens stand one after the other, each token's text
stands in the source at the token's place, and only the last token is the end of
the file.  Nothing but blanks is left out, and no reader counts past the end of
the text (`tokenize_isTiling`).
-/

namespace ComponentTsx

set_option autoImplicit false

/-- Tokens that make up a text which begins at an offset, with blanks between them. -/
inductive Tiles : Nat → Text → List Token → Prop
  /-- Blanks and then the end of the file. -/
  | endOfFile {start : Nat} {blanks : Text} (areBlank : ∀ char ∈ blanks, isBlank char) :
      Tiles start blanks [⟨.endOfFile, start + blanks.byteLength, []⟩]
  /-- Blanks and then a token with a text, followed by more tokens. -/
  | token {start : Nat} {blanks rest : Text} {token : Token} {tokens : List Token}
      (areBlank : ∀ char ∈ blanks, isBlank char) (place : token.start = start + blanks.byteLength)
      (notEnd : token.kind ≠ .endOfFile) (nonempty : token.text ≠ [])
      (tiles : Tiles token.stop rest tokens) :
      Tiles start (blanks ++ token.text ++ rest) (token :: tokens)

/-! ## The lexer tiles -/

/-- The end of the file is no token of a character. -/
theorem kind_readToken_ne_endOfFile (operandExpected : Bool) (first : Char) (rest : Text) :
    (readToken operandExpected first rest).1 ≠ .endOfFile := by
  cases readsBy first with
  | slash _ reads =>
      rw [reads, readSlash.eq_def]
      split
      · exact TokenKind.noConfusion
      · exact TokenKind.noConfusion
      · split <;> exact TokenKind.noConfusion
  | equals _ reads =>
      rw [reads]
      split <;> exact TokenKind.noConfusion
  | string _ reads | template _ reads | identifier _ reads | number _ reads =>
      rw [reads]
      exact TokenKind.noConfusion
  | single kind isSingle reads =>
      rw [reads]
      rintro rfl
      exact isSingle (by decide)

/-- A blank before a tiled text is one of the blanks before its first token. -/
theorem Tiles.cons_blank {blank : Char} {start : Nat} {text : Text} {tokens : List Token}
    (isBlank : isBlank blank) (tiles : Tiles (start + blank.utf8Size) text tokens) :
    Tiles start (blank :: text) tokens := by
  cases tiles with
  | endOfFile areBlank =>
      rw [Nat.add_assoc, ← Text.byteLength_cons]
      exact .endOfFile (List.forall_mem_cons.mpr ⟨isBlank, areBlank⟩)
  | token areBlank place notEnd nonempty tiles =>
      rw [Nat.add_assoc, ← Text.byteLength_cons] at place
      exact .token (List.forall_mem_cons.mpr ⟨isBlank, areBlank⟩) place notEnd nonempty tiles

/-- **The tokens of a text tile it.** -/
theorem tiles_tokensFrom (start : Nat) (operandExpected : Bool) (text : Text) :
    Tiles start text (tokensFrom start operandExpected text) := by
  fun_induction tokensFrom start operandExpected text with
  | case1 start operandExpected => exact .endOfFile (by simp)
  | case2 start operandExpected first rest blank ih => exact ih.cons_blank blank
  | case3 start operandExpected first rest noBlank kind length read token ih =>
      have whole : first :: rest = [] ++ token.text ++ rest.drop length := by
        simp [token]
      rw [whole]
      refine .token (by simp) (by simp [token]) ?_ (by simp [token]) ih
      have notEnd := kind_readToken_ne_endOfFile operandExpected first rest
      rwa [read] at notEnd

namespace Tiles

variable {start : Nat} {text : Text} {tokens : List Token}

/-- There is at least the end of the file. -/
theorem ne_nil (tiles : Tiles start text tokens) : tokens ≠ [] := by
  cases tiles <;> exact List.cons_ne_nil _ _

/-- Only the last token is the end of the file. -/
theorem ne_endOfFile_of_mem_dropLast (tiles : Tiles start text tokens) :
    ∀ token ∈ tokens.dropLast, token.kind ≠ .endOfFile := by
  induction tiles with
  | endOfFile areBlank => simp
  | token areBlank place notEnd nonempty tiles ih =>
      rw [List.dropLast_cons_of_ne_nil tiles.ne_nil]
      exact List.forall_mem_cons.mpr ⟨notEnd, ih⟩

/-- A token that is not the end of the file has a text. -/
theorem text_ne_nil (tiles : Tiles start text tokens) :
    ∀ token ∈ tokens, token.kind ≠ .endOfFile → token.text ≠ [] := by
  induction tiles with
  | endOfFile areBlank => simp
  | token areBlank place notEnd nonempty tiles ih =>
      exact List.forall_mem_cons.mpr ⟨fun _ => nonempty, ih⟩

/-- The text of each token stands where the token begins. -/
theorem exists_text_eq (tiles : Tiles start text tokens) :
    ∀ token ∈ tokens, ∃ before after, text = before ++ token.text ++ after ∧
      token.start = start + before.byteLength := by
  induction tiles with
  | @endOfFile start blanks areBlank => exact fun token member => ⟨blanks, [], by simp_all⟩
  | @token start blanks rest token tokens areBlank place notEnd nonempty tiles ih =>
      refine List.forall_mem_cons.mpr ⟨⟨blanks, rest, rfl, place⟩, fun later member => ?_⟩
      obtain ⟨before, after, rfl, laterPlace⟩ := ih later member
      refine ⟨blanks ++ token.text ++ before, after, by simp, ?_⟩
      rw [laterPlace, Token.stop, place, Text.byteLength_append, Text.byteLength_append]
      omega

/-- Each token begins where the one before it ends, or later. -/
theorem pairwise (tiles : Tiles start text tokens) :
    tokens.Pairwise fun first second => first.stop ≤ second.start := by
  induction tiles with
  | endOfFile areBlank => exact List.pairwise_singleton _ _
  | token areBlank place notEnd nonempty tiles ih =>
      refine List.pairwise_cons.mpr ⟨fun later member => ?_, ih⟩
      obtain ⟨_, _, _, laterPlace⟩ := tiles.exists_text_eq later member
      rw [laterPlace]
      exact Nat.le_add_right _ _

/-- No token begins in another one. -/
theorem eq_of_contains_start (tiles : Tiles start text tokens) {token other : Token}
    (member : token ∈ tokens) (isOther : other ∈ tokens)
    (inside : token.span.contains other.start) : other = token := by
  obtain ⟨earlier, later, rfl⟩ := List.append_of_mem member
  obtain ⟨_, after, across⟩ := List.pairwise_append.mp tiles.pairwise
  obtain ⟨starts, stops⟩ := Span.contains_iff.mp inside
  rcases List.mem_append.mp isOther with isEarlier | isLater
  · have notLast : other ∈ (earlier ++ token :: later).dropLast := by
      rw [List.dropLast_append_of_ne_nil (List.cons_ne_nil token later)]
      exact List.mem_append_left _ isEarlier
    have notEnd := tiles.ne_endOfFile_of_mem_dropLast other notLast
    have positive := Text.byteLength_pos_iff.mpr (tiles.text_ne_nil other isOther notEnd)
    have ends := across other isEarlier token List.mem_cons_self
    simp only [Token.span, Token.stop] at starts ends
    omega
  · rcases List.mem_cons.mp isLater with same | isLater
    · exact same
    · have begins := (List.pairwise_cons.mp after).1 other isLater
      exact absurd stops (Nat.not_lt_of_le begins)

/-- The last token is the end of the file and stands at the end of the text. -/
theorem getLast?_eq (tiles : Tiles start text tokens) :
    tokens.getLast? = some ⟨.endOfFile, start + text.byteLength, []⟩ := by
  induction tiles with
  | endOfFile areBlank => rfl
  | @token start blanks rest token tokens areBlank place notEnd nonempty tiles ih =>
      rw [List.getLast?_cons_of_ne_nil tiles.ne_nil, ih, Token.stop, place]
      simp [Nat.add_assoc]

end Tiles

/-! ## What a tiling leaves out -/

/-- Two places of a text with blanks only between them. -/
def Text.BlankBetween (text : Text) (start stop : Nat) : Prop :=
  ∃ gap, text.slice? start stop = some gap ∧
    ∀ char ∈ gap, char ∈ [' ', '\t', '\r', '\x0c', '\x0b']

theorem Text.blankBetween_append (before : Text) {gap : Text} (after : Text)
    (areBlank : ∀ char ∈ gap, isBlank char) :
    Text.BlankBetween (before ++ gap ++ after) before.byteLength
      (before.byteLength + gap.byteLength) := by
  refine ⟨gap, Text.slice?_append before gap after, fun char member => ?_⟩
  simpa [isBlank, or_assoc] using areBlank char member

/-- Only blanks stand before the first token and between one token and the next. -/
theorem Tiles.blankBetween {start : Nat} {text : Text} {tokens : List Token}
    (tiles : Tiles start text tokens) {before : Text} (place : before.byteLength = start) :
    (∀ first, tokens.head? = some first → (before ++ text).BlankBetween start first.start) ∧
      tokens.IsChain fun first second => (before ++ text).BlankBetween first.stop second.start := by
  induction tiles generalizing before with
  | @endOfFile start blanks areBlank =>
      subst place
      refine ⟨fun first isFirst => ?_, .singleton _⟩
      cases isFirst
      simpa using Text.blankBetween_append before [] areBlank
  | @token start blanks rest token tokens areBlank tokenPlace notEnd nonempty tiles ih =>
      subst place
      have whole : before ++ (blanks ++ token.text ++ rest) =
          (before ++ blanks ++ token.text) ++ rest := by simp
      have stops : (before ++ blanks ++ token.text).byteLength = token.stop := by
        rw [Token.stop, tokenPlace, Text.byteLength_append, Text.byteLength_append]
      obtain ⟨next, later⟩ := ih stops
      rw [whole]
      refine ⟨fun first isFirst => ?_, ?_⟩
      · cases isFirst
        rw [tokenPlace, List.append_assoc (before ++ blanks)]
        exact Text.blankBetween_append before _ areBlank
      · cases tokens with
        | nil => exact .singleton _
        | cons second others => exact .cons_cons (next second rfl) later

/-- Tokens that make up a text: they stand in order, and only blanks stand between them. -/
structure IsTiling (source : Text) (tokens : List Token) : Prop where
  /-- Each token ends before the next ones begin. -/
  ordered : tokens.Pairwise fun first second => first.stop ≤ second.start
  /-- A token's bounds are character boundaries of the text, which has the token's text there. -/
  placed : ∀ token ∈ tokens, source.slice? token.start token.stop = some token.text
  nonempty : ∀ token ∈ tokens.dropLast, token.start < token.stop
  endIsLast : tokens.getLast? = some ⟨.endOfFile, source.byteLength, []⟩
  endIsOnly : ∀ token ∈ tokens.dropLast, token.kind ≠ .endOfFile
  blankBefore : ∀ first, tokens.head? = some first → source.BlankBetween 0 first.start
  blankBetween : tokens.IsChain fun first second => source.BlankBetween first.stop second.start

/--
**The tokens of a text tile it**, and they are no longer than what is left of the text: a reader of
tokens that is asked for one never counts past the end.
-/
theorem tokenize_isTiling (source : Text) :
    IsTiling source (tokenize source) ∧
      ∀ operandExpected first rest, (readToken operandExpected first rest).2 ≤ rest.length := by
  have tiles : Tiles 0 source (tokenize source) := tiles_tokensFrom 0 true source
  have gaps := tiles.blankBetween Text.byteLength_nil
  refine ⟨⟨tiles.pairwise, fun token member => ?_, fun token member => ?_, ?_,
    tiles.ne_endOfFile_of_mem_dropLast, gaps.1, gaps.2⟩, length_readToken_le⟩
  · obtain ⟨before, after, rfl, place⟩ := tiles.exists_text_eq token member
    rw [Token.stop, place, Nat.zero_add]
    exact Text.slice?_append before token.text after
  · have notEnd := tiles.ne_endOfFile_of_mem_dropLast token member
    have nonempty := tiles.text_ne_nil token (List.dropLast_subset _ member) notEnd
    exact Nat.lt_add_of_pos_right (Text.byteLength_pos_iff.mpr nonempty)
  · simpa using tiles.getLast?_eq

end ComponentTsx
