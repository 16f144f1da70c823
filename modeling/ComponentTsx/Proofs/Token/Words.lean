import ComponentTsx.Proofs.Token.Blanking

/-!
# Words

An identifier goes on as long as its characters do.  So a text of such characters
is one token wherever another character follows it (`tokensFrom_word`), and the
identifiers among the tokens of a text have no other texts
(`isWord_of_mem_tokensFrom`).
-/

namespace ComponentTsx

set_option autoImplicit false

/-- Whether a text is an identifier or a keyword. -/
def Text.isWord : Text → Bool
  | [] => false
  | first :: rest => beginsIdentifier first && rest.all continuesIdentifier

theorem Text.isWord_cons {first : Char} {rest : Text} :
    Text.isWord (first :: rest) = true ↔
      beginsIdentifier first ∧ ∀ char ∈ rest, continuesIdentifier char := by
  rw [isWord, Bool.and_eq_true, List.all_eq_true]

theorem Text.continuesIdentifier_of_mem {text : Text} (isWord : text.isWord) {char : Char}
    (member : char ∈ text) : continuesIdentifier char := by
  cases text with
  | nil => cases member
  | cons first rest =>
      obtain ⟨begins, continues⟩ := isWord_cons.mp isWord
      rcases List.mem_cons.mp member with rfl | member
      · rw [continuesIdentifier, begins, Bool.true_or]
      · exact continues char member

theorem Text.isWord_append {first second : Text} (isWord : first.isWord)
    (continues : ∀ char ∈ second, continuesIdentifier char) : (first ++ second).isWord := by
  cases first with
  | nil => cases isWord
  | cons char rest =>
      obtain ⟨begins, others⟩ := isWord_cons.mp isWord
      refine isWord_cons.mpr ⟨begins, fun other member => ?_⟩
      exact (List.mem_append.mp member).elim (others other) (continues other)

/-! ## Reading words -/

theorem readToken_of_beginsIdentifier {first : Char} (begins : beginsIdentifier first)
    (operandExpected : Bool) (rest : Text) :
    readToken operandExpected first rest =
      (.identifier, (rest.takeWhile continuesIdentifier).length) := by
  have other {char : Char} (noWord : beginsIdentifier char = false) : first ≠ char := by
    rintro rfl
    exact Bool.false_ne_true (noWord.symm.trans begins)
  unfold readToken
  rw [if_neg (other rfl), if_neg (other rfl), if_neg (not_or.mpr ⟨other rfl, other rfl⟩),
    if_neg (other rfl), if_pos begins]

theorem not_isBlank_of_beginsIdentifier {first : Char} (begins : beginsIdentifier first) :
    ¬ isBlank first := by
  intro blank
  simp only [isBlank, Bool.or_eq_true, decide_eq_true_eq] at blank
  rcases blank with (((rfl | rfl) | rfl) | rfl) | rfl <;> cases begins

/-- A word before a text that does not go on with it is one token. -/
theorem tokensFrom_word {word : Text} (isWord : word.isWord) {rest : Text}
    (ends : ∀ next ∈ rest.head?, ¬ continuesIdentifier next) (start : Nat)
    (operandExpected : Bool) :
    ∃ expectedAfter, tokensFrom start operandExpected (word ++ rest) =
      ⟨.identifier, start, word⟩ ::
        tokensFrom (start + word.byteLength) expectedAfter rest := by
  cases word with
  | nil => cases isWord
  | cons first others =>
      obtain ⟨begins, continues⟩ := Text.isWord_cons.mp isWord
      have whole : (others ++ rest).takeWhile continuesIdentifier = others := by
        rw [List.takeWhile_append_of_pos continues]
        cases rest with
        | nil => rw [List.takeWhile_nil, List.append_nil]
        | cons next rest =>
            rw [List.takeWhile_cons_of_neg (ends next rfl), List.append_nil]
      have read := readToken_of_beginsIdentifier begins operandExpected (others ++ rest)
      rw [whole] at read
      rw [List.cons_append, tokensFrom_token (not_isBlank_of_beginsIdentifier begins) read,
        List.take_left, List.drop_left]
      exact ⟨_, rfl⟩

theorem isWord_of_mem_tokensFrom {start : Nat} {operandExpected : Bool} {text : Text}
    {token : Token} (member : token ∈ tokensFrom start operandExpected text)
    (isIdentifier : token.kind = .identifier) : token.text.isWord := by
  obtain ⟨earlier, later, lexed⟩ := List.append_of_mem member
  have notEnd : token.kind ≠ .endOfFile := by
    rw [isIdentifier]
    exact TokenKind.noConfusion
  obtain ⟨_, first, rest, length, _, _, taken, read, _⟩ := exists_read_of_tokensFrom notEnd lexed
  rw [isIdentifier] at read
  cases readsBy first with
  | identifier begins reads =>
      have part := List.takeWhile_prefix (l := rest) (p := continuesIdentifier)
      obtain ⟨_, length⟩ := Prod.mk.inj ((reads _ _).symm.trans read)
      rw [taken, ← length, ← List.prefix_iff_eq_take.mp part]
      exact Text.isWord_cons.mpr ⟨begins, fun _ => List.mem_takeWhile_imp⟩
  | slash _ reads =>
      rw [reads, readSlash.eq_def] at read
      repeat' split at read
      all_goals cases read
  | equals _ reads =>
      rw [reads] at read
      split at read <;> cases read
  | string _ reads => cases (reads _ _).symm.trans read
  | template _ reads => cases (reads _ _).symm.trans read
  | number _ reads => cases (reads _ _).symm.trans read
  | single kind isSingle reads =>
      cases (reads _ _).symm.trans read
      exact absurd isSingle (by decide)

end ComponentTsx
