import ComponentTsx.Proofs.Declaration.Outline
import ComponentTsx.Proofs.Token.LineEndings

/-!
# Declarations of a text with carriage returns

A text with carriage returns before its line feeds has tokens of the same kinds,
unless a line feed is hidden in a regular expression or in a string in a
substitution.  A backslash should hide a whole line break or none.  It does so in
a string, but in the other two it hides the line feed alone or the carriage
return alone (`crlf_otherKinds`).

Where the tokens are of the same kinds, so are the declarations
(`crlf_sameKinds`).  The one exception is an import that takes its name from a
string not closed on its line: the string takes the carriage return too, and the
name is another one.
-/

namespace ComponentTsx

set_option autoImplicit false

open Text

/-! ## Text between quotes -/

namespace Import

/-- A text without the quote that it ends with, if it ends with one. -/
def dropQuote (body : Text) : Text :=
  if body.getLast?.any fun char => char = '"' || char = '\'' then body.dropLast else body

theorem unquote_cons (first : Char) (rest : Text) :
    unquote (first :: rest) =
      dropQuote (if first = '"' ∨ first = '\'' then rest else first :: rest) := by
  simp [unquote, dropQuote]

/-- Everything is kept but for a quote at the end. -/
theorem dropQuote_cases (body : Text) :
    dropQuote body = body ∨
      ∃ quote, (quote = '"' ∨ quote = '\'') ∧ body = dropQuote body ++ [quote] := by
  rcases List.eq_nil_or_concat' body with rfl | ⟨front, last, rfl⟩
  · exact .inl rfl
  · by_cases isQuote : last = '"' ∨ last = '\''
    · exact .inr ⟨last, isQuote, by simp [dropQuote, isQuote]⟩
    · exact .inl (by simp [dropQuote, isQuote])

theorem mem_unquote {char : Char} {text : Text} (member : char ∈ text)
    (noQuote : char ≠ '"' ∧ char ≠ '\'') : char ∈ unquote text := by
  have keeps {body : Text} (inBody : char ∈ body) : char ∈ dropQuote body := by
    rcases dropQuote_cases body with same | ⟨quote, isQuote, whole⟩
    · rwa [same]
    · rw [whole] at inBody
      rcases List.mem_append.mp inBody with kept | last
      · exact kept
      · rw [List.mem_singleton.mp last] at noQuote
        exact absurd isQuote (not_or.mpr noQuote)
  cases text with
  | nil => cases member
  | cons first rest =>
      rw [unquote_cons]
      split
      · rename_i isQuote
        rcases List.mem_cons.mp member with rfl | later
        · exact absurd isQuote (not_or.mpr noQuote)
        · exact keeps later
      · exact keeps member

theorem isPlain_propsName : Literal.IsPlain propsName.toList := by
  simp [Literal.IsPlain, propsName]

/-- A text that begins and ends alike and has `Props` between quotes has that name only. -/
theorem eq_of_unquote_eq_propsName {text : Text} (names : unquote text = propsName.toList)
    (closed : text.getLast? = text.head?) :
    ∃ quote, text = quote :: (propsName.toList ++ [quote]) := by
  cases text with
  | nil => cases names
  | cons first rest =>
      rw [unquote_cons] at names
      by_cases isQuote : first = '"' ∨ first = '\''
      · rw [if_pos isQuote] at names
        rcases dropQuote_cases rest with same | ⟨quote, _, whole⟩
        · rw [names] at same
          rw [← same] at closed
          have isLast : 's' = first := Option.some.inj closed
          exact absurd (isLast ▸ isQuote) (by decide)
        · rw [names] at whole
          rw [whole, ← List.cons_append, List.getLast?_concat] at closed
          have isLast : quote = first := Option.some.inj closed
          exact ⟨first, by rw [whole, isLast]⟩
      · rw [if_neg isQuote] at names
        rcases dropQuote_cases (first :: rest) with same | ⟨quote, isLastQuote, whole⟩
        · rw [names] at same
          rw [← same] at closed
          exact absurd closed (by decide)
        · rw [names] at whole
          rw [whole, List.getLast?_concat] at closed
          have isFirst : quote = 'P' := Option.some.inj closed
          exact absurd (isFirst ▸ isLastQuote) (by decide)

end Import

/-! ## Outlines -/

namespace Token

/-- What kinds of declarations depend on: a token's kind, its word and whether it names `Props`. -/
def outline (token : Token) : Token :=
  ⟨token.kind, 0,
    match token.kind with
    | .identifier => token.text
    | .string => if isPropsName (Import.unquote token.text) then propsName.toList else []
    | _ => []⟩

theorem keepsNames_outline : KeepsNames outline where
  kind _ := rfl
  word token isWord := by simp [outline, isWord]
  name token := by
    by_cases isString : token.kind = .string
    · have ownName : isPropsName (Import.unquote propsName.toList) = true := by decide
      have noName : isPropsName (Import.unquote []) = false := by decide
      by_cases named : isPropsName (Import.unquote token.text) <;>
        simp [Import.name?, outline, isString, named, ownName, noName]
    · obtain ⟨kind, start, text⟩ := token
      cases kind <;> first | rfl | exact absurd rfl isString

/-- A string that names `Props` ends with the quote that it begins with. -/
def ClosesName (token : Token) : Prop :=
  token.kind = .string → Import.unquote token.text = propsName.toList →
    token.text.getLast? = token.text.head?

instance (token : Token) : Decidable token.ClosesName :=
  inferInstanceAs (Decidable (_ → _ → _))

/-- A carriage return more or less changes no outline. -/
theorem Alike.outline_eq {token other : Token} (alike : token.Alike other)
    (closes : token.ClosesName) : other.outline = token.outline := by
  have sameText (isString : token.kind = .string) :
      isPropsName (Import.unquote other.text) = isPropsName (Import.unquote token.text) := by
    by_cases names : Import.unquote token.text = propsName.toList
    · obtain ⟨quote, isText⟩ := Import.eq_of_unquote_eq_propsName names (closes isString names)
      rw [alike.texts.closed isString quote _ Import.isPlain_propsName isText]
    · rcases alike.texts.string isString with same | hasReturn
      · rw [same]
      · have inName := Import.mem_unquote hasReturn (by decide)
        have noName : Import.unquote other.text ≠ propsName.toList := fun named =>
          absurd (named ▸ inName) (by decide)
        rw [isPropsName, isPropsName, decide_eq_false noName, decide_eq_false names]
  rw [outline, outline, alike.kind]
  congr 1
  split
  · exact alike.texts.word ‹_›
  · rw [sameText ‹_›]
  · rfl

/-- Tokens that go together one by one have the same outlines, comments aside. -/
theorem map_outline_eq {tokens others : List Token} (each : List.Forall₂ Alike tokens others)
    (closes : ∀ token ∈ tokens, token.ClosesName) :
    (others.filter (!·.kind.isTrivia)).map outline =
      (tokens.filter (!·.kind.isTrivia)).map outline := by
  induction each with
  | nil => rfl
  | @cons token other tokens others alike _ ih =>
      obtain ⟨closesHere, closesLater⟩ := List.forall_mem_cons.mp closes
      rw [List.filter_cons, List.filter_cons, alike.kind]
      split
      · rw [List.map_cons, List.map_cons, alike.outline_eq closesHere, ih closesLater]
      · exact ih closesLater

end Token

/-! ## Kinds of tokens and of declarations -/

namespace Declaration

/--
**Carriage returns before line feeds change no kinds**, if no line feed is hidden in a string of a
substitution and there was no carriage return before.  The tokens are of the same kinds exactly when
no line feed is hidden in a regular expression, and then the declarations are of the same kinds too
if each string that names `Props` is closed.
-/
theorem crlf_sameKinds {source : Text} (noReturn : '\r' ∉ source)
    (unbroken : ∀ token ∈ tokenize source, token.kind = .template →
      ∀ string ∈ token.substitutionStrings source, '\n' ∉ string) :
    ((tokenize (crlf source)).map Token.kind = (tokenize source).map Token.kind ↔
      ∀ token ∈ tokenize source, token.kind = .regex → '\n' ∉ token.text) ∧
    ((∀ token ∈ tokenize source, token.kind = .regex → '\n' ∉ token.text) →
      (∀ token ∈ tokenize source, token.ClosesName) →
      (scan (crlf source)).map shape = (scan source).map shape ∧
        (Props.ofPreamble (some (crlf source))).kindName =
          (Props.ofPreamble (some source)).kindName) := by
  have together : TokensAlike (tokenize source) (tokenize (crlf source)) :=
    tokensFrom_crlf [] noReturn rfl 0 true unbroken
  refine ⟨together.kinds_eq_iff, fun noRegex closes => ?_⟩
  have sameShapes : (scan (crlf source)).map shape = (scan source).map shape := by
    rw [map_shape_scan_eq Token.keepsNames_outline, map_shape_scan_eq Token.keepsNames_outline,
      Token.map_outline_eq (together.each noRegex) closes]
  exact ⟨sameShapes, Props.kindName_ofPreamble sameShapes⟩

/-- Line breaks behind backslashes in a string and in a template, and a string in a substitution. -/
theorem crlf_sameKinds_hidden :
    let source : Text :=
      ("import \x7b a as Props \x7d from 'x' // b\nconst c = \x60$\x7b'd'\x7d\\\n\x60" ++
        " + /e/.f + 'g\\\nh'\n").toList
    '\r' ∉ source ∧
      (∀ token ∈ tokenize source, token.kind = .template →
        ∀ string ∈ token.substitutionStrings source, '\n' ∉ string) ∧
      (∀ token ∈ tokenize source, token.kind = .regex → '\n' ∉ token.text) ∧
      (∀ token ∈ tokenize source, token.ClosesName) ∧
      (tokenize (crlf source)).map Token.kind = (tokenize source).map Token.kind ∧
      (scan (crlf source)).map shape = (scan source).map shape ∧
        (Props.ofPreamble (some (crlf source))).kindName =
          (Props.ofPreamble (some source)).kindName := by
  intro source
  have noReturn : '\r' ∉ source := by decide +kernel
  have unbroken : ∀ token ∈ tokenize source, token.kind = .template →
      ∀ string ∈ token.substitutionStrings source, '\n' ∉ string := by decide +kernel
  have noRegex : ∀ token ∈ tokenize source, token.kind = .regex → '\n' ∉ token.text := by
    decide +kernel
  have closes : ∀ token ∈ tokenize source, token.ClosesName := by decide +kernel
  have same := crlf_sameKinds noReturn unbroken
  exact ⟨noReturn, unbroken, noRegex, closes, same.1.mpr noRegex, same.2 noRegex closes⟩

/--
Without the conditions kinds differ: of tokens, if a line feed is hidden in a string of a
substitution or in a regular expression, and of declarations, if an imported name is not closed.
-/
theorem crlf_otherKinds :
    let substitution : Text := "\x60$\x7b\"\\\n\x60\"\x7d\x60;".toList
    let regex : Text := "/\\\n/".toList
    let name : Text := "import \x7b a as \"Props\n\x7d".toList
    ('\r' ∉ substitution ∧
      (tokenize (crlf substitution)).map Token.kind ≠ (tokenize substitution).map Token.kind) ∧
    ('\r' ∉ regex ∧ (tokenize (crlf regex)).map Token.kind ≠ (tokenize regex).map Token.kind) ∧
    ('\r' ∉ name ∧ (scan (crlf name)).map shape ≠ (scan name).map shape) := by
  decide +kernel

end Declaration

end ComponentTsx
