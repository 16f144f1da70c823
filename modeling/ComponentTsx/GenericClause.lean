import ComponentTsx.Statement

/-!
# Type parameter clauses

A type parameter clause begins with `<` and ends with the `>` that closes it.
All four kinds of brackets nest in it, and a closing bracket that meets an
opening one of another kind leaves no clause.

The parameters of a clause are separated by commas outside inner brackets.  The
name of a parameter is the last identifier, outside inner brackets, before its
constraint or its default.
-/

namespace ComponentTsx

set_option autoImplicit false

/-- A type parameter clause: its text, angle brackets included, and its parameters' names. -/
structure GenericClause where
  raw : Text
  params : List Text
deriving DecidableEq, Repr

namespace GenericClause

/-- The clause as type arguments. -/
def usage (clause : GenericClause) : Text :=
  "<".toList ++ (", ".toList).intercalate clause.params ++ ">".toList

/-! ## Balanced brackets -/

/--
The tokens through the one that closes the bracket `outer`, in which the brackets `inner` are open,
the innermost first.  There are none if a bracket is closed by one of another kind, or not at all.
-/
def takeClosing (outer : Bracket) (inner : List Bracket) : List Token → Option (List Token)
  | [] => none
  | token :: rest =>
      match token.kind with
      | .opening bracket => (takeClosing outer (bracket :: inner) rest).map (token :: ·)
      | .closing bracket =>
          match inner with
          | [] => if bracket = outer then some [token] else none
          | innermost :: others =>
              if bracket = innermost then (takeClosing outer others rest).map (token :: ·)
              else none
      | .endOfFile => none
      | _ => (takeClosing outer inner rest).map (token :: ·)

/-! ## Parameter names -/

/--
The names in the tokens between the outer brackets, `depth` inner brackets being open.  The name
found so far stays until a comma, and after a constraint or default has begun no name is looked for.
-/
def paramNames (depth : Nat) (name : Option Text) (named : Bool) : List Token → List Text
  | [] => name.toList
  | token :: rest =>
      match token.kind with
      | .opening _ => paramNames (depth + 1) name named rest
      | .closing _ => paramNames (depth - 1) name named rest
      | .comma =>
          if depth = 0 then name.toList ++ paramNames depth none false rest
          else paramNames depth name named rest
      | .equals => paramNames depth name (named || depth = 0) rest
      | .identifier =>
          if depth = 0 ∧ named = false then
            if token.isWord "extends" then paramNames depth name true rest
            else paramNames depth (some token.text) named rest
          else paramNames depth name named rest
      | _ => paramNames depth name named rest

/-! ## Reading a clause -/

/--
The tokens of the clause at the beginning of some tokens, comments and line breaks aside.  Inside
the clause they are kept, as they neither open nor close anything.
-/
def tokens? (tokens : List Token) : Option (List Token) :=
  match tokens.dropWhile fun token => Statement.isLineBreak token || token.kind.isTrivia with
  | [] => none
  | first :: rest =>
      if first.kind = .opening .angle then (takeClosing .angle [] rest).map (first :: ·) else none

/-- The clause at the beginning of the tokens of a source. -/
def extract? (source : Text) (tokens : List Token) : Option GenericClause := do
  let clause ← tokens? tokens
  let first ← clause.head?
  let last ← clause.getLast?
  let raw ← source.slice? first.start last.stop
  return ⟨raw, paramNames 0 none false clause.tail.dropLast⟩

end GenericClause

end ComponentTsx
