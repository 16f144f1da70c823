import ComponentTsx.Token.Lexer

/-!
# Tokens at other places

What a token means depends on its kind and its text, not on where it stands.  A
change of tokens that only moves them (`Token.Relocates`) therefore leaves every
reading of them as it was.  How tokens are cut into statements and what kind of
declaration a statement is depend on even less: on the kinds of tokens and the
texts of words (`Token.KeepsWords`).

The tokens of a text that begins at a later offset are those of the text, moved
by the distance (`tokensFrom_add`).
-/

namespace ComponentTsx

set_option autoImplicit false

namespace Token

/-- A change of tokens that keeps their kinds and the texts of identifiers and keywords. -/
structure KeepsWords (move : Token → Token) : Prop where
  kind : ∀ token, (move token).kind = token.kind
  word : ∀ token, token.kind = .identifier → (move token).text = token.text

/-- A change of tokens that keeps their kinds and texts, so that only their places differ. -/
structure Relocates (move : Token → Token) : Prop extends KeepsWords move where
  text : ∀ token, (move token).text = token.text

/-- The token moved right by a distance. -/
def shift (distance : Nat) (token : Token) : Token :=
  { token with start := token.start + distance }

theorem relocates_shift (distance : Nat) : Relocates (shift distance) :=
  ⟨⟨fun _ => rfl, fun _ _ => rfl⟩, fun _ => rfl⟩

@[simp] theorem start_shift (distance : Nat) (token : Token) :
    (token.shift distance).start = token.start + distance := rfl

@[simp] theorem text_shift (distance : Nat) (token : Token) :
    (token.shift distance).text = token.text := rfl

@[simp] theorem stop_shift (distance : Nat) (token : Token) :
    (token.shift distance).stop = token.stop + distance := by
  simp only [stop, start_shift, text_shift, Nat.add_right_comm]

@[simp] theorem span_shift (distance : Nat) (token : Token) :
    (token.shift distance).span = token.span.shift distance := by
  simp only [span, start_shift, stop_shift, Span.shift]

/-- The tokens that are no comments, moved right by a distance. -/
def codeAt (distance : Nat) (tokens : List Token) : List Token :=
  (tokens.filter (!·.kind.isTrivia)).map (shift distance)

theorem filter_map_shift (distance : Nat) (tokens : List Token) :
    (tokens.map (shift distance)).filter (!·.kind.isTrivia) = codeAt distance tokens := by
  rw [List.filter_map]
  rfl

theorem codeAt_enclosed {opening closing : Token} (opens : opening.kind.isTrivia = false)
    (closes : closing.kind.isTrivia = false) (distance : Nat) (inside : List Token) :
    codeAt distance (opening :: (inside ++ [closing])) =
      opening.shift distance :: (codeAt distance inside ++ [closing.shift distance]) := by
  simp [codeAt, opens, closes]

namespace KeepsWords

variable {move : Token → Token} (keeps : KeepsWords move) (token : Token)

include keeps

theorem isWord (word : String) : (move token).isWord word = token.isWord word := by
  rw [Token.isWord, Token.isWord, keeps.kind]
  by_cases isIdentifier : token.kind = .identifier
  · rw [keeps.word token isIdentifier]
  · simp [isIdentifier]

theorem isOneOf (words : List String) : (move token).isOneOf words = token.isOneOf words := by
  simp only [Token.isOneOf, keeps.isWord]

theorem isIdentifier : (move token).isIdentifier = token.isIdentifier := by
  rw [Token.isIdentifier, keeps.kind, Token.isIdentifier]

theorem operandExpectedAfter (expectedBefore : Bool) :
    ComponentTsx.operandExpectedAfter expectedBefore (move token) =
      ComponentTsx.operandExpectedAfter expectedBefore token := by
  rw [ComponentTsx.operandExpectedAfter, keeps.kind, keeps.isOneOf,
    ComponentTsx.operandExpectedAfter]

end KeepsWords

end Token

/-- A text that begins at a later offset has the same tokens, moved by the distance. -/
theorem tokensFrom_add (start distance : Nat) (operandExpected : Bool) (text : Text) :
    tokensFrom (start + distance) operandExpected text =
      (tokensFrom start operandExpected text).map (Token.shift distance) := by
  fun_induction tokensFrom start operandExpected text with
  | case1 start operandExpected =>
      rw [tokensFrom_nil]
      rfl
  | case2 start operandExpected first rest blank ih =>
      rw [tokensFrom_blank blank, Nat.add_right_comm, ih]
  | case3 start operandExpected first rest noBlank kind length read token ih =>
      have same := (Token.relocates_shift distance).operandExpectedAfter token operandExpected
      rw [tokensFrom_token noBlank read, List.map_cons, ← ih, ← same, Nat.add_right_comm]
      rfl

end ComponentTsx
