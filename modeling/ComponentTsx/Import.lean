import ComponentTsx.Statement

/-!
# Import statements

An import introduces local names: a default name, a namespace, or the names of a
braced list.  This module finds out what an import makes the name `Props` stand
for.  A statement that is no import as far as its names go introduces none.
-/

namespace ComponentTsx

set_option autoImplicit false

/-- The name of the type that describes the properties of a component. -/
def propsName : String := "Props"

/-- What an import makes the name `Props` stand for. -/
structure ImportBinding where
  /-- The module imported from, without quotes. -/
  module : Text
  /--
  What the module calls it, if not `Props`: the exported name, `default` for a default import, and
  `*` for the module as a whole.
  -/
  aliasOf : Option Text
  /-- Whether only the type is imported. -/
  typeOnly : Bool
deriving DecidableEq, Repr

/-- A name that an import introduces. -/
structure ImportedName where
  /-- The name it has here. -/
  localName : Text
  /-- The name it has in the module, if that is another one. -/
  aliasOf : Option Text
  /-- Whether only the type is imported. -/
  typeOnly : Bool
deriving DecidableEq, Repr

namespace Import

/-- The text of a string literal without the quote at either end. -/
def unquote (literal : Text) : Text :=
  let isQuote := fun char => char = '"' || char = '\''
  let body :=
    match literal with
    | first :: rest => if isQuote first then rest else literal
    | [] => []
  if body.getLast?.any isQuote then body.dropLast else body

/-- The module that a token names: what stands between quotes. -/
def moduleName (token : Option Token) : Text :=
  match token with
  | some token => if token.kind = .string then unquote token.text else []
  | none => []

/-- The name that a token is: an identifier, or a string with the name between quotes. -/
def name? (token : Token) : Option Text :=
  match token.kind with
  | .identifier => some token.text
  | .string => some (unquote token.text)
  | _ => none

/-! ## Braced lists -/

/-- Whether the word `type`, with these tokens after it, marks a name as a type. -/
def marksType (rest : List Token) : Bool :=
  rest.head?.any fun next =>
    (next.kind = .identifier || next.kind = .string) && !next.isWord "as"

/--
What a list introduces for a name of the module, given the tokens after that name, and how many of
those tokens belong to it.
-/
def readAlias (typeOnly : Bool) (exported : Text) : List Token → Option (ImportedName × Nat)
  | [] => some (⟨exported, none, typeOnly⟩, 0)
  | next :: others =>
      if next.isWord "as" then do
        let localName ← others.head?.bind name?
        let aliasOf := if exported = localName then none else some exported
        return (⟨localName, aliasOf, typeOnly⟩, 2)
      else some (⟨exported, none, typeOnly⟩, 0)

/--
The name in a list that begins with a token, and how many of the tokens after that one belong to it.
-/
def readName (typeOnly : Bool) (first : Token) (rest : List Token) :
    Option (ImportedName × Nat) := do
  if first.isWord "type" && marksType rest then
    let exported ← rest.head?.bind name?
    let (name, length) ← readAlias true exported rest.tail
    return (name, length + 1)
  else
    let exported ← name? first
    readAlias typeOnly exported rest

/--
The names of a list that goes on with these tokens, and what follows the brace that closes the list.
Commas separate the names, and one may follow the last.
-/
def readList (typeOnly : Bool) : List Token → Option (List ImportedName × List Token)
  | [] => none
  | first :: rest => do
      if first.kind = .closing .brace then return ([], rest)
      let (name, length) ← readName typeOnly first rest
      match _h : rest.drop length with
      | [] => none
      | next :: others =>
          if next.kind = .comma then
            let (names, after) ← readList typeOnly others
            return (name :: names, after)
          else if next.kind = .closing .brace then return ([name], others)
          else none
termination_by tokens => tokens.length
decreasing_by
  have := congrArg List.length _h
  simp only [List.length_drop, List.length_cons] at this
  simp only [List.length_cons]
  omega

theorem readList_cons (typeOnly : Bool) (first : Token) (rest : List Token) :
    readList typeOnly (first :: rest) =
      if first.kind = .closing .brace then some ([], rest)
      else
        (readName typeOnly first rest).bind fun (name, length) =>
          match rest.drop length with
          | [] => none
          | next :: others =>
              if next.kind = .comma then
                (readList typeOnly others).map fun (names, after) => (name :: names, after)
              else if next.kind = .closing .brace then some ([name], others)
              else none := by
  rw [readList]
  by_cases closes : first.kind = .closing .brace
  · simp [closes]
  · cases readName typeOnly first rest with
    | none => simp [closes]
    | some read =>
        obtain ⟨name, length⟩ := read
        simp only [closes, if_false, Option.bind_some, Option.bind_eq_bind]
        split
        · rename_i ended
          rw [ended]
        · rename_i next others goesOn
          simp only [goesOn]
          cases readList typeOnly others <;> rfl

/-! ## Whole statements -/

/-- The names that `* as name` or a braced list introduces, if either is there, and what follows. -/
def readNamespaceOrList (typeOnly : Bool) :
    List Token → Option (List ImportedName × List Token)
  | [] => some ([], [])
  | first :: rest =>
      if first.kind = .star then
        match rest with
        | asWord :: name :: after =>
            if asWord.isWord "as" && name.isIdentifier then
              some ([⟨name.text, some "*".toList, typeOnly⟩], after)
            else none
        | _ => none
      else if first.kind = .opening .brace then readList typeOnly rest
      else some ([], first :: rest)

/-- The binding of `Props` by `import Props =`, given the tokens after the sign. -/
def readAssigned (typeOnly : Bool) (tokens : List Token) : ImportBinding :=
  match tokens with
  | [] => ⟨[], none, typeOnly⟩
  | first :: rest =>
      if first.isWord "require" then
        let argument := if rest.head?.any (·.kind = .opening .paren) then rest.tail else rest
        ⟨moduleName argument.head?, some "*".toList, typeOnly⟩
      else
        let path := tokens.takeWhile fun token => token.kind = .identifier || token.kind = .dot
        ⟨path.flatMap (·.text), none, typeOnly⟩

/-- The module after the word `from`; without that word there is none. -/
def readModule (tokens : List Token) : Text :=
  if tokens.head?.any (·.isWord "from") then moduleName tokens.tail.head? else []

/-- The binding of `Props` among the names of an import, the first of which is the default name. -/
def readNames (typeOnly : Bool) (defaultName : List ImportedName) (tokens : List Token) :
    Option ImportBinding := do
  let (names, after) ← readNamespaceOrList typeOnly tokens
  let name ← (defaultName ++ names).find? (·.localName = propsName.toList)
  return ⟨readModule after, name.aliasOf, name.typeOnly⟩

/--
Whether the word `type` at the beginning, with these tokens after it, makes the whole import one of
types.  Otherwise it is the default name.
-/
def importsTypes (rest : List Token) : Bool :=
  !rest.head?.any fun next => next.isWord "from" || next.kind = .comma || next.kind = .equals

/-- The binding of `Props` by an import, given the tokens after the word `import`. -/
def binding? (tokens : List Token) : Option ImportBinding :=
  let typeOnly := tokens.head?.any (·.isWord "type") && importsTypes tokens.tail
  match (if typeOnly then tokens.tail else tokens) with
  | [] => none
  | first :: rest =>
      if first.isIdentifier then
        if rest.head?.any (·.kind = .equals) then
          if first.text = propsName.toList then some (readAssigned typeOnly rest.tail) else none
        else
          let afterComma := if rest.head?.any (·.kind = .comma) then rest.tail else rest
          readNames typeOnly [⟨first.text, some "default".toList, typeOnly⟩] afterComma
      else readNames typeOnly [] (first :: rest)

end Import

end ComponentTsx
