import ComponentTsx.Proofs.Token.Spelling

/-!
# Templates by their grammar

A template is characters, escapes and substitutions between two backticks.  A
substitution is code between braces, and code is made of strings, comments,
braces around more code, and templates again (`IsNested`).  Each kind of text is
measured whole before the character that closes it, by induction on the grammar
(`IsNested.measured`), so nothing inside a template ends it early and nothing
behind it belongs to it (`TemplateLiteral.tokenize_text`).
-/

namespace ComponentTsx

set_option autoImplicit false

open Literal

/-! ## The grammar -/

/-- What stands between the quotes of a string: plain characters and escapes. -/
inductive IsQuoted (quote : Char) : Text → Prop
  | nil : IsQuoted quote []
  | char {char : Char} {rest : Text} (plain : char ≠ quote ∧ char ≠ '\\' ∧ char ≠ '\n')
      (later : IsQuoted quote rest) : IsQuoted quote (char :: rest)
  | escape {hidden : Char} {rest : Text} (later : IsQuoted quote rest) :
      IsQuoted quote ('\\' :: hidden :: rest)

/-- The two kinds of text that templates are made of. -/
inductive TemplatePart where
  /-- What stands between the backticks of a template. -/
  | characters
  /-- What stands between the braces of a substitution, or between braces in it. -/
  | code

/-- The texts of either kind. -/
inductive IsNested : TemplatePart → Text → Prop
  | nil {part : TemplatePart} : IsNested part []
  | char {char : Char} {rest : Text} (plain : char ≠ '\x60' ∧ char ≠ '\\')
      (apart : char = '$' → rest.head? ≠ some '{') (later : IsNested .characters rest) :
      IsNested .characters (char :: rest)
  | escape {hidden : Char} {rest : Text} (later : IsNested .characters rest) :
      IsNested .characters ('\\' :: hidden :: rest)
  | substitution {inside rest : Text} (code : IsNested .code inside)
      (later : IsNested .characters rest) :
      IsNested .characters ('$' :: '{' :: (inside ++ ['}'] ++ rest))
  | plain {char : Char} {rest : Text} (plain : char ∉ ['\'', '"', '\x60', '/', '{', '}'])
      (later : IsNested .code rest) : IsNested .code (char :: rest)
  | string {quote : Char} {inside rest : Text} (isQuote : quote = '\'' ∨ quote = '"')
      (quoted : IsQuoted quote inside) (later : IsNested .code rest) :
      IsNested .code (quote :: (inside ++ [quote] ++ rest))
  | template {inside rest : Text} (characters : IsNested .characters inside)
      (later : IsNested .code rest) : IsNested .code ('\x60' :: (inside ++ ['\x60'] ++ rest))
  | blockComment {body rest : Text} (closed : ¬ ['*', '/'] <:+: body)
      (later : IsNested .code rest) : IsNested .code ('/' :: '*' :: (body ++ ['*', '/'] ++ rest))
  | lineComment {body rest : Text} (oneLine : '\n' ∉ body) (later : IsNested .code rest) :
      IsNested .code ('/' :: '/' :: (body ++ ['\n'] ++ rest))
  | slash {rest : Text} (alone : rest.head? ≠ some '/' ∧ rest.head? ≠ some '*')
      (later : IsNested .code rest) : IsNested .code ('/' :: rest)
  | braces {inside rest : Text} (code : IsNested .code inside) (later : IsNested .code rest) :
      IsNested .code ('{' :: (inside ++ ['}'] ++ rest))

/-- A template, by what stands between its backticks. -/
structure TemplateLiteral where
  characters : Text
  isNested : IsNested .characters characters

/-- The text of a template. -/
def TemplateLiteral.text (template : TemplateLiteral) : Text :=
  '\x60' :: (template.characters ++ ['\x60'])

/-! ## Strings and comments in code -/

/-- A string in code ends with its closing quote. -/
theorem IsQuoted.nestedQuotedLength_eq {quote : Char} (isQuote : quote = '\'' ∨ quote = '"')
    {inside : Text} (quoted : IsQuoted quote inside) (rest : Text) :
    nestedQuotedLength quote (inside ++ [quote] ++ rest) = (inside ++ [quote]).length := by
  induction quoted with
  | nil =>
      have plain : quote ≠ '\\' ∧ quote ≠ '\n' := by
        rcases isQuote with rfl | rfl <;> decide
      exact (nestedQuotedLength_char plain.1 plain.2 rest).trans (if_pos rfl)
  | char plain _ ih =>
      obtain ⟨noQuote, noEscape, noBreak⟩ := plain
      rw [List.cons_append, List.cons_append, nestedQuotedLength_char noEscape noBreak,
        if_neg noQuote, ih]
      rfl
  | escape _ ih =>
      rw [List.cons_append, List.cons_append, List.cons_append, List.cons_append,
        nestedQuotedLength, ih]
      rfl

/-! ## Parts of code -/

/-- Whether a part of code is passed over whole, whatever follows it. -/
def PassedOver (part : Text) : Prop :=
  ∀ depth rest, substitutionLength depth (part ++ rest) =
    substitutionLength depth rest + part.length

/-- Whether a text is measured whole before the character that closes it, whatever follows. -/
def TemplatePart.Measures : TemplatePart → Text → Prop
  | .characters, text => ∀ rest,
      templateLength (text ++ ['\x60'] ++ rest) = (text ++ ['\x60']).length
  | .code, text => ∀ depth rest, substitutionLength depth (text ++ '}' :: rest) =
      substitutionLength depth ('}' :: rest) + text.length

/-- A character that opens nothing and closes nothing is passed over alone. -/
theorem passedOver_plain {char : Char} (plain : char ∉ ['\'', '"', '\x60', '/', '{', '}']) :
    PassedOver [char] := by
  intro depth rest
  simp only [List.mem_cons, List.not_mem_nil, or_false, not_or] at plain
  obtain ⟨noSingle, noDouble, noTemplate, noSlash, noOpen, noClose⟩ := plain
  rw [List.singleton_append, substitutionLength_char noTemplate
    (fun _ isSlash => absurd isSlash noSlash) (fun _ isSlash => absurd isSlash noSlash) noOpen
    noClose, if_neg (by simp [noSingle, noDouble])]
  rfl

theorem passedOver_string {quote : Char} (isQuote : quote = '\'' ∨ quote = '"') {inside : Text}
    (quoted : IsQuoted quote inside) : PassedOver (quote :: (inside ++ [quote])) := by
  intro depth rest
  have other {char : Char} (noQuote : char ≠ '\'' ∧ char ≠ '"') : quote ≠ char := by
    rintro rfl
    exact isQuote.elim noQuote.1 noQuote.2
  rw [List.cons_append, substitutionLength_char (other (by decide)) _ _ (other (by decide))
    (other (by decide)), if_pos isQuote, quoted.nestedQuotedLength_eq isQuote, List.drop_left]
  · rfl
  · exact fun _ isSlash => absurd isSlash (other (by decide))
  · exact fun _ isSlash => absurd isSlash (other (by decide))

theorem passedOver_template {inside : Text} (measured : TemplatePart.characters.Measures inside) :
    PassedOver ('\x60' :: (inside ++ ['\x60'])) := by
  intro depth rest
  rw [List.cons_append, substitutionLength, measured, List.drop_left]
  rfl

theorem passedOver_blockComment {body : Text} (closed : ¬ ['*', '/'] <:+: body) :
    PassedOver ('/' :: '*' :: (body ++ ['*', '/'])) := by
  intro depth rest
  have split : body ++ ['*', '/'] ++ rest = body ++ '*' :: '/' :: rest := by simp
  rw [List.cons_append, List.cons_append, substitutionLength, split,
    blockCommentLength_closed closed, ← split, List.drop_left]
  rfl

/-- A line comment leaves the line feed behind it, which is passed over alone. -/
theorem passedOver_lineComment {body : Text} (oneLine : '\n' ∉ body) :
    PassedOver ('/' :: '/' :: (body ++ ['\n'])) := by
  intro depth rest
  have passed := @passedOver_plain '\n' (by decide) depth rest
  have length : lineCommentLength (body ++ '\n' :: rest) = body.length :=
    lineCommentLength_closed oneLine (by simp)
  rw [List.cons_append, List.cons_append, List.append_assoc, substitutionLength,
    List.singleton_append, length, List.drop_left, ← List.singleton_append, passed]
  simp only [List.length_cons, List.length_append, List.length_nil]
  omega

/-- Braces are passed over with the code between them. -/
theorem passedOver_braces {inside : Text} (measured : TemplatePart.code.Measures inside) :
    PassedOver ('{' :: (inside ++ ['}'])) := by
  intro depth rest
  rw [List.cons_append, List.append_assoc, List.singleton_append, substitutionLength, measured,
    substitutionLength]
  simp only [List.length_cons, List.length_append, List.length_nil]
  omega

/-- What is passed over may stand before any code. -/
theorem PassedOver.measures {part later : Text} (passed : PassedOver part)
    (measured : TemplatePart.code.Measures later) :
    TemplatePart.code.Measures (part ++ later) := by
  intro depth rest
  rw [List.append_assoc, passed, measured depth, List.length_append]
  omega

/-! ## Measuring by the grammar -/

/-- **A text of the grammar is measured whole.** -/
theorem IsNested.measured {part : TemplatePart} {text : Text} (nested : IsNested part text) :
    part.Measures text := by
  induction nested with
  | @nil part =>
      cases part with
      | characters =>
          intro rest
          rw [List.nil_append, List.singleton_append, templateLength]
          rfl
      | code => exact fun depth rest => rfl
  | @char char later plain apart _ ih =>
      intro rest
      rw [List.cons_append, List.cons_append, templateLength_char, ih rest, List.length_cons]
      · exact fun _ _ isEscape => absurd isEscape plain.2
      · exact plain.1
      · intro tail isDollar isBrace
        have head := congrArg List.head? isBrace
        cases later with
        | nil => exact absurd head (by simp)
        | cons next later => exact apart isDollar head
  | escape _ ih =>
      intro rest
      rw [List.cons_append, List.cons_append, List.cons_append, List.cons_append, templateLength,
        ih rest]
      rfl
  | @substitution inside later _ _ ihCode ih =>
      intro rest
      have length (more : Text) :
          substitutionLength 0 (inside ++ ['}'] ++ more) = (inside ++ ['}']).length := by
        rw [List.append_assoc, List.singleton_append, ihCode 0, substitutionLength,
          List.length_append, Nat.add_comm]
        rfl
      rw [List.cons_append, List.cons_append, List.cons_append, List.cons_append,
        List.append_assoc (inside ++ ['}']), List.append_assoc (inside ++ ['}']), templateLength,
        length, List.drop_left, ih rest]
      simp only [List.length_cons, List.length_append]
      omega
  | plain plain _ ih => exact (passedOver_plain plain).measures ih
  | string isQuote quoted _ ih => exact (passedOver_string isQuote quoted).measures ih
  | template _ _ ihInside ih => exact (passedOver_template ihInside).measures ih
  | blockComment closed _ ih => exact (passedOver_blockComment closed).measures ih
  | lineComment oneLine _ ih => exact (passedOver_lineComment oneLine).measures ih
  | @slash later alone _ ih =>
      intro depth rest
      have noComment : ∀ char ∈ ['/', '*'], (later ++ '}' :: rest).head? ≠ some char := by
        cases later with
        | nil => simp
        | cons next later => simpa using alone
      rw [List.cons_append, substitutionLength_char (by decide) _ _ (by decide) (by decide),
        if_neg (by decide), ih depth]
      · rfl
      · rintro tail - isSlash
        exact noComment '/' (by decide) (congrArg List.head? isSlash)
      · rintro tail - isStar
        exact noComment '*' (by decide) (congrArg List.head? isStar)
  | braces _ _ ihCode ih => exact (passedOver_braces ihCode).measures ih

/-! ## Templates in a text -/

namespace TemplateLiteral

variable (template : TemplateLiteral)

/-- A template is read whole, and an operator is expected behind it. -/
theorem tokensFrom_text (start : Nat) (operandExpected : Bool) (rest : Text) :
    tokensFrom start operandExpected (template.text ++ rest) =
      ⟨.template, start, template.text⟩ ::
        tokensFrom (start + template.text.byteLength) false rest := by
  have measured := template.isNested.measured rest
  have read : readToken operandExpected '\x60' (template.characters ++ ['\x60'] ++ rest) =
      (.template, (template.characters ++ ['\x60']).length) := congrArg _ measured
  rw [text, List.cons_append, tokensFrom_token (by decide) read, List.take_left, List.drop_left]
  rfl

/--
**A template is the first token of any text that it begins**, of exactly its length, and the rest of
the text is read after it.
-/
theorem tokenize_text (rest : Text) :
    tokenize (template.text ++ rest) =
      ⟨.template, 0, template.text⟩ :: tokensFrom template.text.byteLength false rest := by
  rw [tokenize, template.tokensFrom_text, Nat.zero_add]

/-- Backticks and braces in an escape, in a string, in a comment and in a template of their own. -/
theorem tokenize_text_nested :
    ∃ template : TemplateLiteral,
      template.text =
        "\x60\\\x60$\x7b\x7b'\x7d'\x7d\x60\x7d$\x7bb\x7d\x60/*\x60*/\x7d\x60".toList ∧
      tokenize (template.text ++ "/ 2".toList) =
        ⟨.template, 0, template.text⟩ ::
          tokensFrom template.text.byteLength false "/ 2".toList := by
  have comment := @IsNested.blockComment ['\x60'] [] (by decide) .nil
  have string := @IsNested.string '\'' ['}'] [] (.inl rfl) (.char (by decide) .nil) .nil
  have inner : IsNested .characters _ :=
    @IsNested.char '}' _ (by decide) (by decide)
      (.substitution (@IsNested.plain 'b' [] (by decide) .nil) .nil)
  let template : TemplateLiteral :=
    ⟨_, @IsNested.escape '\x60' _ (.substitution (.braces string (.template inner comment)) .nil)⟩
  exact ⟨template, rfl, tokenize_text template _⟩

end TemplateLiteral

end ComponentTsx
