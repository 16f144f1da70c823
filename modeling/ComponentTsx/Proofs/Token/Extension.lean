import ComponentTsx.Proofs.Token.Ending
import ComponentTsx.Proofs.Token.Replacement

/-!
# Texts that go on after the end of a statement

A token that ends before a semicolon and a line feed is found without looking
past them, since a regular expression ends on its line.  So a text that ends
with the two, each a token of its own, has the same tokens whatever follows, and
what follows is read as at the beginning of a text (`tokensFrom_append`).
-/

namespace ComponentTsx

set_option autoImplicit false

/-! ## One token -/

namespace Literal

/-- A regular expression ends on its line, so it is settled by a semicolon and a line feed. -/
theorem regexLength?_append (inClass : Bool) (text more : Text) :
    regexLength? inClass (text ++ ';' :: '\n' :: more) =
      regexLength? inClass (text ++ [';', '\n']) := by
  fun_induction regexLength? inClass text with
  | case1 inClass => simp [regexLength?]
  | case2 inClass => simp [regexLength?]
  | case3 inClass char rest ih => simp only [List.cons_append, regexLength?, ih]
  | case4 inClass char rest noEscape isBreak =>
      rw [List.cons_append, List.cons_append, regexLength?, regexLength?, if_pos isBreak,
        if_pos isBreak] <;> exact noEscape
  | case5 inClass char rest noEscape noBreak isEnd =>
      have noFlag : ¬ Char.isAlpha ';' := by decide
      rw [List.cons_append, List.cons_append, regexLength?, regexLength?, if_neg noBreak,
        if_neg noBreak, if_pos isEnd, if_pos isEnd, takeWhile_append_cons noFlag,
        takeWhile_append_cons noFlag] <;> exact noEscape
  | case6 inClass char rest noEscape noBreak noEnd inClass' ih =>
      rw [List.cons_append, List.cons_append, regexLength?, regexLength?, if_neg noBreak,
        if_neg noBreak, if_neg noEnd, if_neg noEnd]
      · exact congrArg (Option.map (· + 1)) ih
      · exact noEscape
      · exact noEscape

end Literal

/-- A token that ends before a semicolon and a line feed is the same whatever follows them. -/
theorem readToken_append (operandExpected : Bool) (first : Char) (rest more : Text)
    (ends : (readToken operandExpected first (rest ++ [';', '\n'])).2 ≤ rest.length) :
    readToken operandExpected first (rest ++ ';' :: '\n' :: more) =
      readToken operandExpected first (rest ++ [';', '\n']) :=
  readToken_endsAlike (.refl ';') (fun _ _ _ => Literal.regexLength?_append false rest more) ends

/-! ## All tokens -/

/-- The last tokens of a text with a semicolon at an offset and then a line feed. -/
def Token.statementEnd (offset : Nat) : List Token :=
  [⟨.semicolon, offset, [';']⟩, ⟨.newline, offset + 1, ['\n']⟩]

theorem tokensFrom_break (start : Nat) (operandExpected : Bool) (more : Text) :
    tokensFrom start operandExpected (';' :: '\n' :: more) =
      Token.statementEnd start ++ tokensFrom (start + 2) true more := by
  have semicolon : readToken operandExpected ';' ('\n' :: more) = (.semicolon, 0) := rfl
  have newline : readToken true '\n' more = (.newline, 0) := rfl
  rw [tokensFrom_token (by decide) semicolon]
  exact congrArg _ (tokensFrom_token (by decide) newline (start + 1))

/--
A text that ends with a semicolon and a line feed, each a token of its own, goes on being read as at
the beginning of a text, where an operand is expected.
-/
theorem tokensFrom_append (start : Nat) (operandExpected : Bool) (text more : Text)
    (before : List Token)
    (lexed : tokensFrom start operandExpected (text ++ [';', '\n']) =
      before ++ Token.statementEnd (start + text.byteLength) ++
        [⟨.endOfFile, start + text.byteLength + 2, []⟩]) :
    tokensFrom start operandExpected (text ++ ';' :: '\n' :: more) =
      before ++ Token.statementEnd (start + text.byteLength) ++
        tokensFrom (start + text.byteLength + 2) true more := by
  rw [List.append_assoc] at lexed
  obtain ⟨expected, _, replaced⟩ := tokensFrom_replaced
    (fun expected first rest _ ends => readToken_append expected first rest more ends) rfl lexed
  rw [replaced, tokensFrom_break, List.append_assoc]

end ComponentTsx
