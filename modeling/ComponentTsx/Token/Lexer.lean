import ComponentTsx.Token
import ComponentTsx.Token.Literal

/-!
# Reading a text as tokens

Blanks between tokens are skipped; every other character belongs to exactly one
token, if need be to an invalid token of its own.  The last token is the end of
the file, which has no text.

A slash that begins no comment begins a regular expression where an operand is
expected, and is a division elsewhere.
-/

namespace ComponentTsx

set_option autoImplicit false

/-! ## Character classes -/

/-- The blanks between tokens: a line feed is none of them. -/
def isBlank (char : Char) : Bool :=
  char = ' ' || char = '\t' || char = '\r' || char = '\x0c' || char = '\x0b'

/-- Whether an identifier may begin with the character: any character beyond ASCII counts. -/
def beginsIdentifier (char : Char) : Bool :=
  char.isAlpha || char = '_' || char = '$' || decide (0x80 ≤ char.toNat)

/-- Whether an identifier may go on with the character. -/
def continuesIdentifier (char : Char) : Bool := beginsIdentifier char || char.isDigit

/-- Whether a number may go on with the character, before or after its point. -/
def continuesNumber (char : Char) : Bool := char.isAlphanum || char = '_'

/-- The kind of a token that is always a single character. -/
def punctuation? : Char → Option TokenKind
  | '\n' => some .newline
  | '<' => some (.opening .angle)
  | '>' => some (.closing .angle)
  | '{' => some (.opening .brace)
  | '}' => some (.closing .brace)
  | '(' => some (.opening .paren)
  | ')' => some (.closing .paren)
  | '[' => some (.opening .square)
  | ']' => some (.closing .square)
  | ',' => some .comma
  | ';' => some .semicolon
  | ':' => some .colon
  | '?' => some .question
  | '.' => some .dot
  | '|' => some .pipe
  | '&' => some .ampersand
  | '*' => some .star
  | '-' | '+' | '%' | '!' | '~' | '^' | '@' | '#' => some .operator
  | _ => none

/-! ## One token -/

/-- The characters of a number after its first digit. -/
def numberLength (text : Text) : Nat :=
  let whole := (text.takeWhile continuesNumber).length
  match text.drop whole with
  | '.' :: rest => whole + 1 + (rest.takeWhile continuesNumber).length
  | _ => whole

/-- The kind of a token that begins with a slash and how many characters follow the slash. -/
def readSlash (operandExpected : Bool) : Text → TokenKind × Nat
  | '/' :: rest => (.lineComment, Literal.lineCommentLength rest + 1)
  | '*' :: rest => (.blockComment, Literal.blockCommentLength rest + 1)
  | rest =>
      match (if operandExpected then Literal.regexLength? false rest else none) with
      | some length => (.regex, length)
      | none => (.slash, 0)

/-- The kind of the token that begins with a character and how many characters follow that one. -/
def readToken (operandExpected : Bool) (first : Char) (rest : Text) : TokenKind × Nat :=
  if first = '/' then readSlash operandExpected rest
  else if first = '=' then
    match rest with
    | '>' :: _ => (.arrow, 1)
    | _ => (.equals, 0)
  else if first = '\'' ∨ first = '"' then (.string, Literal.quotedLength first rest)
  else if first = '\x60' then (.template, Literal.templateLength rest)
  else if beginsIdentifier first then (.identifier, (rest.takeWhile continuesIdentifier).length)
  else if first.isDigit then (.number, numberLength rest)
  else ((punctuation? first).getD .invalid, 0)

/-- The words after which an operand follows, although other identifiers are operands. -/
def operandKeywords : List String :=
  ["return", "typeof", "instanceof", "in", "of", "new", "delete", "void", "throw", "case", "do",
    "else", "yield", "await"]

/-- Whether an operand is expected after a token; comments and line breaks change nothing. -/
def operandExpectedAfter (expectedBefore : Bool) (token : Token) : Bool :=
  match token.kind with
  | .lineComment | .blockComment | .newline => expectedBefore
  | .identifier => token.isOneOf operandKeywords
  | .number | .string | .template | .regex | .closing .paren | .closing .square => false
  | _ => true

/-! ## All tokens -/

/-- The tokens of a text that begins at a byte offset. -/
def tokensFrom (start : Nat) (operandExpected : Bool) : Text → List Token
  | [] => [⟨.endOfFile, start, []⟩]
  | first :: rest =>
      if isBlank first then tokensFrom (start + first.utf8Size) operandExpected rest
      else
        let (kind, length) := readToken operandExpected first rest
        let token : Token := ⟨kind, start, first :: rest.take length⟩
        token :: tokensFrom token.stop (operandExpectedAfter operandExpected token)
          (rest.drop length)
termination_by text => text.length

@[simp] theorem tokensFrom_nil (start : Nat) (operandExpected : Bool) :
    tokensFrom start operandExpected [] = [⟨.endOfFile, start, []⟩] := by
  rw [tokensFrom]

theorem tokensFrom_blank {first : Char} (blank : isBlank first) (start : Nat)
    (operandExpected : Bool) (rest : Text) :
    tokensFrom start operandExpected (first :: rest) =
      tokensFrom (start + first.utf8Size) operandExpected rest := by
  rw [tokensFrom, if_pos blank]

theorem tokensFrom_token {operandExpected : Bool} {first : Char} {rest : Text} {kind : TokenKind}
    {length : Nat} (noBlank : ¬ isBlank first)
    (read : readToken operandExpected first rest = (kind, length)) (start : Nat) :
    tokensFrom start operandExpected (first :: rest) =
      ⟨kind, start, first :: rest.take length⟩ ::
        tokensFrom (start + Text.byteLength (first :: rest.take length))
          (operandExpectedAfter operandExpected ⟨kind, start, first :: rest.take length⟩)
          (rest.drop length) := by
  rw [tokensFrom, if_neg noBlank, read]
  rfl

/-- The tokens of a source text, the end of the file last. -/
def tokenize (source : Text) : List Token := tokensFrom 0 true source

end ComponentTsx
