import ComponentTsx.Token

/-!
# Top-level statements

The tokens of a preamble, comments removed, are cut into top-level statements.
A statement ends with a semicolon outside brackets, or before a line break
outside brackets unless the line goes on with the next one.  A closing brace
outside brackets also ends a statement when a word that begins statements
follows it on the same line.

Angle brackets do not count here, because `<` is also the less-than operator.
-/

namespace ComponentTsx

set_option autoImplicit false

/-- The tokens of a statement, with line breaks among them, and all tokens after it. -/
structure Statement where
  tokens : List Token
  following : List Token
deriving DecidableEq, Repr

namespace Statement

/-- Words that begin a statement. -/
def startWords : List String :=
  ["interface", "type", "import", "export", "function", "const", "let", "var", "class", "enum",
    "declare", "abstract", "async", "namespace", "if", "for", "while", "do", "switch", "try",
    "return", "throw"]

/-- Words that may stand before the keyword of a declaration. -/
def modifiers : List String := ["export", "declare", "default"]

/-- Whether a token is a line break. -/
def isLineBreak (token : Token) : Bool := token.kind matches .newline

/-- The tokens that are no line breaks. -/
def significant (tokens : List Token) : List Token := tokens.filter (!isLineBreak ·)

/-! ## Lines that go on -/

/-- Whether a line that ends with the token goes on with the next line. -/
def continuesAfter (token : Token) : Bool :=
  match token.kind with
  | .comma | .dot | .equals | .arrow | .opening .angle | .question | .colon | .pipe | .ampersand
  | .star | .slash => true
  | .identifier =>
      token.isOneOf ["extends", "keyof", "typeof", "as", "satisfies", "implements"]
  | _ => false

/-- Whether a line that begins with the token goes on from the line before. -/
def continuesBefore (token : Token) : Bool :=
  match token.kind with
  | .comma | .dot | .equals | .arrow | .closing .angle | .question | .colon | .pipe
  | .ampersand => true
  | .identifier => token.isOneOf ["extends", "as", "satisfies", "implements"]
  | _ => false

/-- Whether a brace opens outside angle brackets, `angles` of which are open before the tokens. -/
def opensBody (angles : Nat) : List Token → Bool
  | [] => false
  | token :: rest =>
      match token.kind with
      | .opening .angle => opensBody (angles + 1) rest
      | .closing .angle => opensBody (angles - 1) rest
      | .opening .brace => angles = 0 || opensBody angles rest
      | _ => opensBody angles rest

/-- Whether the tokens are the header of an interface whose body has not begun. -/
def awaitsInterfaceBody (header : List Token) : Bool :=
  ((significant header).dropWhile (·.isOneOf modifiers)).head?.any (·.isWord "interface") &&
    !opensBody 0 header

/--
Whether the statement goes on after a line break, given its tokens before the break, the last one
first, and all tokens after it.
-/
def continuesAcross (pending rest : List Token) : Bool :=
  let previous := pending.find? (!isLineBreak ·)
  let next := rest.find? (!isLineBreak ·)
  previous.any continuesAfter || next.any continuesBefore ||
    (next.any (·.kind = .opening .brace) && awaitsInterfaceBody pending.reverse)

/-! ## Cutting -/

/-- The number of open braces, parentheses and square brackets after a token. -/
def depthAfter (depth : Nat) (token : Token) : Nat :=
  match token.kind with
  | .opening .brace | .opening .paren | .opening .square => depth + 1
  | .closing .brace | .closing .paren | .closing .square => depth - 1
  | _ => depth

/-- Whether a token that leaves a depth ends its statement, given the tokens after it. -/
def endsWith (depth : Nat) (token : Token) (rest : List Token) : Bool :=
  depth = 0 &&
    match token.kind with
    | .semicolon => true
    | .closing .brace => rest.head?.any (·.isOneOf startWords)
    | _ => false

/--
The statements of tokens, when `pending` precedes them in the first one at a depth, the last token
first.
-/
def splitFrom (depth : Nat) (pending : List Token) : List Token → List Statement
  | [] => []
  | token :: rest =>
      if token.kind = .endOfFile then [⟨pending.reverse, token :: rest⟩]
      else if isLineBreak token && depth = 0 && !continuesAcross pending rest then
        ⟨pending.reverse, token :: rest⟩ :: splitFrom 0 [] rest
      else if endsWith (depthAfter depth token) token rest then
        ⟨(token :: pending).reverse, rest⟩ :: splitFrom 0 [] rest
      else splitFrom (depthAfter depth token) (token :: pending) rest

/-- The statements of the tokens of a preamble, comments removed.  A statement may be empty. -/
def split (tokens : List Token) : List Statement := splitFrom 0 [] tokens

end Statement

end ComponentTsx
