import ComponentTsx.Proofs.Token.Tiling

/-!
# Texts with another ending

If a token begins at some place of a text, then the tokens before it end before
that place.  With another text from the place on they are the same, as long as
each of them is found without what stood there (`tokensFrom_replaced_of_read`).
-/

namespace ComponentTsx

set_option autoImplicit false

/-- Nothing stands before a token that begins where the text does. -/
theorem Tiles.eq_nil_of_start {start : Nat} {text : Text} {earlier later : List Token}
    {token : Token} (tiles : Tiles start text (earlier ++ token :: later))
    (place : token.start = start) : earlier = [] := by
  cases earlier with
  | nil => rfl
  | cons head earlier =>
      have ordered := (List.pairwise_cons.mp tiles.pairwise).1 token (by simp)
      have isEarlier : head ∈ (head :: earlier ++ token :: later).dropLast := by
        rw [List.cons_append, List.dropLast_cons_of_ne_nil (by simp)]
        exact List.mem_cons_self
      have notEnd := tiles.ne_endOfFile_of_mem_dropLast head isEarlier
      have positive := Text.byteLength_pos_iff.mpr (tiles.text_ne_nil head (by simp) notEnd)
      obtain ⟨_, _, _, headPlace⟩ := tiles.exists_text_eq head (by simp)
      rw [Token.stop] at ordered
      omega

/-- A token that ends by a place takes nothing of what follows the place. -/
theorem le_length_of_byteLength_take_le {rest more : Text} {length : Nat}
    (inside : length ≤ (rest ++ more).length)
    (ends : Text.byteLength ((rest ++ more).take length) ≤ rest.byteLength) :
    length ≤ rest.length := by
  by_contra past
  have tooLong : (rest ++ more).take length = rest ++ more.take (length - rest.length) := by
    rw [List.take_append, List.take_of_length_le (Nat.le_of_not_le past)]
  rw [tooLong, Text.byteLength_append] at ends
  have nonempty : more.take (length - rest.length) ≠ [] := by
    rw [List.length_append] at inside
    rw [ne_eq, List.take_eq_nil_iff, ← List.length_eq_zero_iff]
    omega
  have positive := Text.byteLength_pos_iff.mpr nonempty
  omega

/-- A token that begins before another one ends before it. -/
theorem le_length_of_mem_tokensFrom {later : Token} {start length : Nat} {operandExpected : Bool}
    {first : Char} {rest more : Text} {kind : TokenKind} (noBlank : ¬ isBlank first)
    (read : readToken operandExpected first (rest ++ more) = (kind, length))
    (place : later.start = start + Text.byteLength (first :: rest))
    (member : later ∈ tokensFrom start operandExpected (first :: (rest ++ more))) :
    length ≤ rest.length ∧
      later.start = start + Text.byteLength (first :: rest.take length) +
        Text.byteLength (rest.drop length) := by
  have positive := first.utf8Size_pos
  rw [Text.byteLength_cons] at place
  have ends : length ≤ rest.length := by
    have inside := length_readToken_le operandExpected first (rest ++ more)
    rw [read] at inside
    refine le_length_of_byteLength_take_le inside ?_
    rw [tokensFrom_token noBlank read] at member
    rcases List.mem_cons.mp member with here | member
    · rw [here] at place
      simp only at place
      omega
    · obtain ⟨_, _, _, laterPlace⟩ := (tiles_tokensFrom _ _ _).exists_text_eq later member
      rw [Text.byteLength_cons] at laterPlace
      omega
  refine ⟨ends, ?_⟩
  have whole : Text.byteLength rest =
      Text.byteLength (rest.take length) + Text.byteLength (rest.drop length) := by
    rw [← Text.byteLength_append, List.take_append_drop]
  rw [place, Text.byteLength_cons, whole]
  omega

/--
**The tokens before a place stay when another text stands from there on**, if each of them is read
alike where it stands.  At the place the lexer expects an operand in both texts or in neither.
-/
theorem tokensFrom_replaced_of_read {tail other text : Text} {start : Nat} {operandExpected : Bool}
    {earlier later : List Token} {token : Token}
    (alike : ∀ front here back, earlier = front ++ here :: back →
      ∀ first rest length, first :: rest <:+ text → length ≤ rest.length →
        readToken (front.foldl operandExpectedAfter operandExpected) first (rest ++ tail) =
          (here.kind, length) →
        readToken (front.foldl operandExpectedAfter operandExpected) first (rest ++ other) =
          (here.kind, length))
    (place : token.start = start + text.byteLength)
    (lexed : tokensFrom start operandExpected (text ++ tail) = earlier ++ token :: later) :
    ∃ expectedThere, tokensFrom token.start expectedThere tail = token :: later ∧
      tokensFrom start operandExpected (text ++ other) =
        earlier ++ tokensFrom token.start expectedThere other := by
  induction size : text.length using Nat.strongRecOn
    generalizing start operandExpected text earlier with
  | ind size ih =>
  subst size
  match text with
  | [] =>
      have tiles : Tiles start tail (earlier ++ token :: later) :=
        lexed ▸ tiles_tokensFrom start operandExpected ([] ++ tail)
      cases tiles.eq_nil_of_start place
      cases place
      exact ⟨operandExpected, lexed, rfl⟩
  | first :: rest =>
      rw [List.cons_append] at lexed ⊢
      by_cases blank : isBlank first
      · rw [tokensFrom_blank blank] at lexed ⊢
        rw [Text.byteLength_cons, ← Nat.add_assoc] at place
        refine ih rest.length (Nat.lt_succ_self _) ?_ place lexed rfl
        exact fun front here back split char text length among =>
          alike front here back split char text length (among.trans (List.suffix_cons first rest))
      · obtain ⟨⟨kind, length⟩, read⟩ : ∃ pair,
            readToken operandExpected first (rest ++ tail) = pair := ⟨_, rfl⟩
        -- The token is still ahead, so this one ends before the place.
        have member : token ∈ tokensFrom start operandExpected (first :: (rest ++ tail)) := by
          simp [lexed]
        obtain ⟨ends, place⟩ := le_length_of_mem_tokensFrom blank read place member
        rw [tokensFrom_token blank read] at lexed
        rw [List.take_append_of_le_length ends, List.drop_append_of_le_length ends] at lexed
        cases earlier with
        | nil =>
            have here := congrArg Token.start (List.cons.inj lexed).1
            have positive := first.utf8Size_pos
            simp only [Text.byteLength_cons] at here place
            omega
        | cons head earlier =>
            obtain ⟨isHead, others⟩ := List.cons_eq_cons.mp (lexed.trans List.cons_append)
            have kindHead : kind = head.kind := congrArg Token.kind isHead
            have same := alike [] head earlier rfl first rest length List.suffix_rfl ends
              (read.trans (congrArg (·, length) kindHead))
            rw [List.foldl_nil, ← kindHead] at same
            rw [tokensFrom_token blank same]
            rw [List.take_append_of_le_length ends, List.drop_append_of_le_length ends]
            rw [isHead] at others ⊢
            have among : rest.drop length <:+ first :: rest :=
              (List.drop_suffix length rest).trans (List.suffix_cons first rest)
            have shorter : (rest.drop length).length < (first :: rest).length := by
              rw [List.length_drop, List.length_cons]
              omega
            obtain ⟨expectedThere, onward, replaced⟩ := ih _ shorter
              (fun front here back split char text count inside =>
                alike (head :: front) here back (congrArg (head :: ·) split) char text count
                  (inside.trans among)) place others rfl
            exact ⟨expectedThere, onward, congrArg (head :: ·) replaced⟩

/-- The tokens before a place stay if all that end before the place are read alike. -/
theorem tokensFrom_replaced {tail other text : Text} {start : Nat} {operandExpected : Bool}
    {earlier later : List Token} {token : Token}
    (alike : ∀ operandExpected first rest, first :: rest <:+ text →
      (readToken operandExpected first (rest ++ tail)).2 ≤ rest.length →
        readToken operandExpected first (rest ++ other) =
          readToken operandExpected first (rest ++ tail))
    (place : token.start = start + text.byteLength)
    (lexed : tokensFrom start operandExpected (text ++ tail) = earlier ++ token :: later) :
    ∃ expectedThere, tokensFrom token.start expectedThere tail = token :: later ∧
      tokensFrom start operandExpected (text ++ other) =
        earlier ++ tokensFrom token.start expectedThere other := by
  refine tokensFrom_replaced_of_read ?_ place lexed
  intro front here back _ first rest length among inside read
  refine (alike _ first rest among ?_).trans read
  rw [read]
  exact inside

end ComponentTsx
