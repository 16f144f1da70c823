import ComponentTsx.Span

/-!
# Tokens of a TypeScript preamble

Tokens are only as fine as bracket nesting and statement boundaries need them.
A string, a template literal, a comment or a regular expression is one token, so
the brackets in it never count.  Each `>` is a token of its own, since `>>` may
close two type argument lists, while `=>` is one token, since an arrow closes
nothing.  A line feed is a token too, because it may end a statement.
-/

namespace ComponentTsx

set_option autoImplicit false

/-- The four pairs of brackets. -/
inductive Bracket where
  | angle
  | brace
  | paren
  | square
deriving DecidableEq, Repr

/-- What a token is. -/
inductive TokenKind where
  | newline
  | lineComment
  | blockComment
  | string
  | template
  | regex
  | identifier
  | number
  | opening (bracket : Bracket)
  | closing (bracket : Bracket)
  | comma
  | semicolon
  | colon
  | question
  | equals
  | arrow
  | dot
  | slash
  | pipe
  | ampersand
  | star
  | operator
  | endOfFile
  | invalid
deriving DecidableEq, Repr

namespace TokenKind

/-- Comments carry no meaning. -/
def isTrivia : TokenKind → Bool
  | lineComment | blockComment => true
  | _ => false

/-- Whether tokens of the kind close a bracket. -/
def isCloser : TokenKind → Bool
  | closing _ => true
  | _ => false

/-- The kind that closes a bracket opened by tokens of this kind. -/
def closer? : TokenKind → Option TokenKind
  | opening bracket => some (closing bracket)
  | _ => none

@[simp] theorem isCloser_opening (bracket : Bracket) : isCloser (opening bracket) = false := rfl

@[simp] theorem isCloser_closing (bracket : Bracket) : isCloser (closing bracket) = true := rfl

@[simp] theorem closer?_opening (bracket : Bracket) :
    closer? (opening bracket) = some (closing bracket) := rfl

@[simp] theorem closer?_closing (bracket : Bracket) : closer? (closing bracket) = none := rfl

/-- What closes a bracket closes one that some kind opens. -/
theorem isCloser_iff {kind : TokenKind} :
    kind.isCloser = true ↔ ∃ opener : TokenKind, opener.closer? = some kind := by
  constructor
  · intro closes
    cases kind with
    | closing bracket => exact ⟨opening bracket, rfl⟩
    | _ => cases closes
  · rintro ⟨opener, closes⟩
    cases opener with
    | opening bracket =>
        cases closes
        rfl
    | _ => cases closes

/-- The kind in words. -/
def name : TokenKind → String
  | newline => "newline"
  | lineComment => "line comment"
  | blockComment => "block comment"
  | string => "string"
  | template => "template literal"
  | regex => "regular expression"
  | identifier => "identifier"
  | number => "number"
  | opening .angle => "'<'"
  | closing .angle => "'>'"
  | opening .brace => "'\x7b'"
  | closing .brace => "'\x7d'"
  | opening .paren => "'('"
  | closing .paren => "')'"
  | opening .square => "'['"
  | closing .square => "']'"
  | comma => "','"
  | semicolon => "';'"
  | colon => "':'"
  | question => "'?'"
  | equals => "'='"
  | arrow => "'=>'"
  | dot => "'.'"
  | slash => "'/'"
  | pipe => "'|'"
  | ampersand => "'&'"
  | star => "'*'"
  | operator => "operator"
  | endOfFile => "end of file"
  | invalid => "invalid token"

end TokenKind

/-- A token: its kind, the byte offset where it begins and its text. -/
structure Token where
  kind : TokenKind
  start : Nat
  text : Text
deriving DecidableEq, Repr

namespace Token

/-- The byte offset where the token ends. -/
def stop (token : Token) : Nat := token.start + token.text.byteLength

/-- The bytes of the token. -/
def span (token : Token) : Span := ⟨token.start, token.stop⟩

/-- Whether the token is an identifier. -/
def isIdentifier (token : Token) : Bool := token.kind = .identifier

/-- Whether the token is a given identifier or keyword. -/
def isWord (word : String) (token : Token) : Bool :=
  decide (token.kind = .identifier) && decide (token.text = word.toList)

/-- Whether the token is one of some identifiers or keywords. -/
def isOneOf (words : List String) (token : Token) : Bool := words.any token.isWord

end Token

end ComponentTsx
