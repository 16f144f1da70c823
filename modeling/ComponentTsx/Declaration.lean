import ComponentTsx.GenericClause
import ComponentTsx.Import
import ComponentTsx.Token.Lexer

/-!
# Declarations of a preamble

Each top-level statement of a preamble is a declaration.  The name `Props` can
be declared by an interface, a type alias or an import; all other statements
declare nothing of interest, however often they use the name.
-/

namespace ComponentTsx

set_option autoImplicit false

/-- How a statement declares the name `Props`. -/
inductive PropsDeclaration where
  | interface (clause : Option GenericClause)
  | typeAlias (clause : Option GenericClause)
  | imported (binding : ImportBinding)
deriving DecidableEq, Repr

/-- The type parameters of a local declaration; an import has none. -/
def PropsDeclaration.clause? : PropsDeclaration → Option GenericClause
  | interface clause => clause
  | typeAlias clause => clause
  | imported _ => none

/-- A top-level statement: where it stands and whether it declares `Props`. -/
structure Declaration where
  props : Option PropsDeclaration
  span : Span
deriving DecidableEq, Repr

namespace Declaration

/--
Cuts off the modifiers a statement begins with, each of which needs an identifier after it, and
tells whether `default` is among them.  The word `default` is a modifier only directly after
`export`.
-/
def stripModifiers (afterExport : Bool) : List Token → Bool × List Token
  | first :: next :: rest =>
      let isDefault := afterExport && first.isWord "default"
      if (first.isOneOf ["export", "declare"] || isDefault) && next.isIdentifier then
        let (isDefaultLater, stripped) := stripModifiers (first.isWord "export") (next :: rest)
        (isDefault || isDefaultLater, stripped)
      else (false, first :: next :: rest)
  | tokens => (false, tokens)

/-- What remains without the modifiers is the end of the statement. -/
theorem stripModifiers_suffix (afterExport : Bool) (tokens : List Token) :
    (stripModifiers afterExport tokens).2 <:+ tokens := by
  induction tokens generalizing afterExport with
  | nil => exact List.suffix_rfl
  | cons first rest ih =>
      cases rest with
      | nil => exact List.suffix_rfl
      | cons next rest =>
          rw [stripModifiers]
          split
          · exact (ih _).trans (List.suffix_cons first (next :: rest))
          · exact List.suffix_rfl

/-- Whether a token may follow the name of an interface. -/
def followsInterfaceName (token : Token) : Bool :=
  token.kind = .opening .angle || token.kind = .opening .brace || token.isWord "extends"

/-- Whether a token may follow the name of a type alias. -/
def followsAliasName (token : Token) : Bool :=
  token.kind = .opening .angle || token.kind = .equals

/--
How a statement declares `Props`, given its tokens without line breaks and all tokens after it, from
which a type parameter clause may still be read.
-/
def classify (source : Text) (statement following : List Token) : Option PropsDeclaration :=
  let (isDefault, stripped) := stripModifiers false statement
  match stripped with
  | keyword :: rest =>
      let afterName := rest.tail
      let namesProps := rest.head?.any (·.isWord propsName)
      if keyword.isWord "interface" then
        if namesProps && afterName.head?.any followsInterfaceName then
          some (.interface (GenericClause.extract? source (afterName ++ following)))
        else none
      else if keyword.isWord "type" && !isDefault then
        if namesProps && afterName.head?.any followsAliasName then
          some (.typeAlias (GenericClause.extract? source (afterName ++ following)))
        else none
      else if keyword.isWord "import" && !isDefault then
        (Import.binding? rest).map .imported
      else none
  | [] => none

/-- The declaration that a statement makes; an empty statement makes none. -/
def ofStatement? (source : Text) (statement : Statement) : Option Declaration := do
  let tokens := Statement.significant statement.tokens
  let first ← tokens.head?
  let last ← tokens.getLast?
  return ⟨classify source tokens statement.following, first.span.cover last.span⟩

/-- The top-level statements of a preamble; comments belong to none. -/
def statements (preamble : Text) : List Statement :=
  Statement.split ((tokenize preamble).filter (!·.kind.isTrivia))

/-- The declarations of a preamble, in its order. -/
def scan (preamble : Text) : List Declaration :=
  (statements preamble).filterMap (ofStatement? preamble)

end Declaration

end ComponentTsx
