import ComponentTsx.Proofs.Declaration.Grammar
import ComponentTsx.Proofs.Statement.Spelling

/-!
# Written imports are read back

An import is written with an optional default name and, besides it, a name for
the whole module or a braced list (`WrittenImport`).  The words `type`, `as` and
`from` have a meaning in it, so they are no names there; apart from that the
reader has to look at two tokens at most to tell what it reads.  It finds the
names that the import introduces, in their order (`binding?_tokens`).
-/

namespace ComponentTsx

set_option autoImplicit false

/-! ## Imports to be written -/

namespace Lexeme

/-- A word with a meaning of its own. -/
def keyword (word : String) (isWord : Text.isWord word.toList) : Lexeme := .word word.toList isWord

def comma : Lexeme := .mark ',' .comma rfl TokenKind.noConfusion

def star : Lexeme := .mark '*' .star rfl TokenKind.noConfusion

def openBrace : Lexeme := .mark '\x7b' (.opening .brace) rfl TokenKind.noConfusion

def closeBrace : Lexeme := .mark '\x7d' (.closing .brace) rfl TokenKind.noConfusion

end Lexeme

namespace Import

/-- A name in an import, where some words are none. -/
structure Name where
  text : Text
  isWord : text.isWord
  isFree : ∀ word ∈ ["type", "as", "from"], text ≠ word.toList

def Name.lexeme (name : Name) : Lexeme := .word name.text name.isWord

/-- What a list says about one name: a string needs a name here. -/
inductive Specifier where
  | named (typeOnly : Bool) (exported : Name) (rename : Option Name)
  | quoted (typeOnly : Bool) (exported : StringLiteral) (rename : Name)

namespace Specifier

/-- Whether the word `type` stands before the name. -/
def typeOnly : Specifier → Bool
  | named typeOnly _ _ => typeOnly
  | quoted typeOnly _ _ => typeOnly

/-- The name in the module, as it is written. -/
def exported : Specifier → Lexeme
  | named _ exported _ => exported.lexeme
  | quoted _ exported _ => .string exported

/-- The name in the module. -/
def exportedName : Specifier → Text
  | named _ exported _ => exported.text
  | quoted _ exported _ => exported.content

/-- The name behind the word `as`. -/
def rename : Specifier → Option Name
  | named _ _ rename => rename
  | quoted _ _ rename => some rename

/-- The name that is introduced, by an import of types or not. -/
def imported (onlyTypes : Bool) (specifier : Specifier) : ImportedName :=
  let typeOnly := onlyTypes || specifier.typeOnly
  match specifier.rename with
  | none => ⟨specifier.exportedName, none, typeOnly⟩
  | some name =>
      ⟨name.text,
        if specifier.exportedName = name.text then none else some specifier.exportedName, typeOnly⟩

/-- The word `as` and another name, if there is one. -/
def asLexemes : Option Name → List Lexeme
  | none => []
  | some name => [.keyword "as" rfl, name.lexeme]

def lexemes (specifier : Specifier) : List Lexeme :=
  (if specifier.typeOnly then [.keyword "type" rfl] else []) ++
    specifier.exported :: asLexemes specifier.rename

end Specifier

/-- The names of a list with commas between them, and another one behind the last if so wanted. -/
def listLexemes (trailing : Bool) : List Specifier → List Lexeme
  | [] => []
  | [last] => last.lexemes ++ if trailing then [.comma] else []
  | first :: rest => first.lexemes ++ .comma :: listLexemes trailing rest

/-- What an import introduces besides a default name. -/
inductive Others where
  | whole (name : Name)
  | list (specifiers : List Specifier) (trailing : Bool)

namespace Others

def names (onlyTypes : Bool) : Others → List ImportedName
  | whole name => [⟨name.text, some "*".toList, onlyTypes⟩]
  | list specifiers _ => specifiers.map (·.imported onlyTypes)

def lexemes : Others → List Lexeme
  | whole name => [.star, .keyword "as" rfl, name.lexeme]
  | list specifiers trailing => .openBrace :: (listLexemes trailing specifiers ++ [.closeBrace])

end Others

end Import

open Import in
/-- An import that introduces a default name, other names or both. -/
structure WrittenImport where
  onlyTypes : Bool
  defaultName : Option Name
  others : Option Others
  module : StringLiteral
  nonempty : defaultName.isSome ∨ others.isSome

namespace WrittenImport

/-- The names that the import introduces. -/
def names (written : WrittenImport) : List ImportedName :=
  (written.defaultName.map fun name =>
      ⟨name.text, some "default".toList, written.onlyTypes⟩).toList ++
    (written.others.map (·.names written.onlyTypes)).getD []

/-- The lexemes of the names, with a comma behind a default name that is not alone. -/
def nameLexemes (written : WrittenImport) : List Lexeme :=
  match written.defaultName, written.others with
  | none, others => (others.map (·.lexemes)).getD []
  | some name, none => [name.lexeme]
  | some name, some others => name.lexeme :: .comma :: others.lexemes

/-- The lexemes behind the word `import`. -/
def lexemes (written : WrittenImport) : List Lexeme :=
  (if written.onlyTypes then [.keyword "type" rfl] else []) ++ written.nameLexemes ++
    [.keyword "from" rfl, .string written.module]

end WrittenImport

/-! ## Reading tokens -/

/-- The tokens of lexemes, wherever they stand. -/
def tokensOf (lexemes : List Lexeme) : List Token := lexemes.map (·.token 0)

namespace Import

/-- A string stands for its content. -/
theorem unquote_text (literal : StringLiteral) : unquote literal.text = literal.content := by
  have isQuote : (literal.quote = '"' || literal.quote = '\'') = true := by
    rcases literal.isQuote with isQuote | isQuote <;> simp [isQuote]
  simp only [unquote, StringLiteral.text, isQuote, if_true, List.getLast?_concat,
    Option.any_some, List.dropLast_concat]

theorem name?_exported (specifier : Specifier) :
    name? (specifier.exported.token 0) = some specifier.exportedName := by
  cases specifier with
  | named => rfl
  | quoted _ exported _ => exact congrArg some (unquote_text exported)

theorem isWord_name (name : Name) (word : String) (isKeyword : word ∈ ["type", "as", "from"]) :
    (name.lexeme.token 0).isWord word = false := by
  simp [Token.isWord, Name.lexeme, Lexeme.token, Lexeme.text, name.isFree word isKeyword]

theorem isWord_exported (specifier : Specifier) (word : String)
    (isKeyword : word ∈ ["type", "as", "from"]) :
    (specifier.exported.token 0).isWord word = false := by
  cases specifier with
  | named _ exported _ => exact isWord_name exported word isKeyword
  | quoted => rfl

variable (onlyTypes : Bool)

theorem marksType_exported (specifier : Specifier) (rest : List Token) :
    marksType (specifier.exported.token 0 :: rest) := by
  have noAs := isWord_exported specifier "as" (by simp)
  simp only [marksType, List.head?_cons, Option.any_some, noAs, Bool.not_false, Bool.and_true]
  cases specifier <;> rfl

/-- The other name of a specifier, or none before a token that is not the word `as`. -/
theorem readAlias_append (specifier : Specifier) (typeOnly : Bool) {stop : Token}
    (noAs : stop.isWord "as" = false) (others : List Token) :
    readAlias typeOnly specifier.exportedName
        (tokensOf (Specifier.asLexemes specifier.rename) ++ stop :: others) =
      some (match specifier.rename with
        | none => ⟨specifier.exportedName, none, typeOnly⟩
        | some name => ⟨name.text, if specifier.exportedName = name.text then none
            else some specifier.exportedName, typeOnly⟩,
        (Specifier.asLexemes specifier.rename).length) := by
  cases specifier.rename with
  | none => simp [Specifier.asLexemes, tokensOf, readAlias, noAs]
  | some name => rfl

/-- **A specifier is read back** before a token that is not the word `as`. -/
theorem readName_append (specifier : Specifier) {stop : Token} (noAs : stop.isWord "as" = false)
    (others : List Token) :
    ∃ first rest length, tokensOf specifier.lexemes ++ stop :: others = first :: rest ∧
      first.kind ≠ .closing .brace ∧
      readName onlyTypes first rest = some (specifier.imported onlyTypes, length) ∧
      rest.drop length = stop :: others := by
  have isName := name?_exported specifier
  have alias_ (typeOnly : Bool) := readAlias_append specifier typeOnly noAs others
  cases marked : specifier.typeOnly with
  | true =>
      refine ⟨(Lexeme.keyword "type" rfl).token 0, specifier.exported.token 0 ::
        (tokensOf (Specifier.asLexemes specifier.rename) ++ stop :: others),
        (Specifier.asLexemes specifier.rename).length + 1, ?_, TokenKind.noConfusion, ?_, ?_⟩
      · simp [Specifier.lexemes, marked, tokensOf]
      · have isType : ((Lexeme.keyword "type" rfl).token 0).isWord "type" = true := rfl
        simp only [readName, isType, marksType_exported, Bool.and_self, if_true, List.head?_cons,
          List.tail_cons, Option.bind_some, isName, alias_, Option.bind_eq_bind,
          Specifier.imported, marked, Bool.or_true]
        cases specifier.rename <;> rfl
      · simp [tokensOf]
  | false =>
      refine ⟨specifier.exported.token 0,
        tokensOf (Specifier.asLexemes specifier.rename) ++ stop :: others,
        (Specifier.asLexemes specifier.rename).length, ?_, ?_, ?_, ?_⟩
      · simp [Specifier.lexemes, marked, tokensOf]
      · cases specifier <;> exact TokenKind.noConfusion
      · have noType := isWord_exported specifier "type" (by simp)
        simp only [readName, noType, Bool.false_and, Bool.false_eq_true, if_false, isName, alias_,
          Option.bind_eq_bind, Option.bind_some, Specifier.imported, marked, Bool.or_false]
      · simp [tokensOf]

/-- A list goes on behind a specifier with a comma or the closing brace. -/
theorem readList_specifier (specifier : Specifier) {stop : Token}
    (noAs : stop.isWord "as" = false) (others : List Token) :
    readList onlyTypes (tokensOf specifier.lexemes ++ stop :: others) =
      if stop.kind = .comma then
        (readList onlyTypes others).map fun (names, after) =>
          (specifier.imported onlyTypes :: names, after)
      else if stop.kind = .closing .brace then some ([specifier.imported onlyTypes], others)
      else none := by
  obtain ⟨first, rest, length, whole, noEnd, read, later⟩ :=
    readName_append onlyTypes specifier noAs others
  rw [whole, readList_cons, if_neg noEnd, read]
  simp only [Option.bind_some, later]

/-- **A list is read back**, through its closing brace. -/
theorem readList_append (trailing : Bool) (specifiers : List Specifier) (after : List Token) :
    readList onlyTypes (tokensOf (listLexemes trailing specifiers) ++
        Lexeme.closeBrace.token 0 :: after) =
      some (specifiers.map (·.imported onlyTypes), after) := by
  have atEnd : readList onlyTypes (Lexeme.closeBrace.token 0 :: after) = some ([], after) :=
    (readList_cons ..).trans (if_pos rfl)
  have behind (specifier : Specifier) (others : List Token) :
      readList onlyTypes (tokensOf specifier.lexemes ++ Lexeme.comma.token 0 :: others) =
        (readList onlyTypes others).map fun (names, after) =>
          (specifier.imported onlyTypes :: names, after) :=
    (readList_specifier onlyTypes specifier rfl others).trans (if_pos rfl)
  induction specifiers with
  | nil => exact atEnd
  | cons specifier rest ih =>
      match rest, ih with
      | [], _ =>
          cases trailing with
          | true =>
              have whole : tokensOf (listLexemes true [specifier]) =
                  tokensOf specifier.lexemes ++ [Lexeme.comma.token 0] := List.map_append
              rw [whole, List.append_assoc]
              exact (behind specifier _).trans (congrArg _ atEnd)
          | false =>
              have whole : listLexemes false [specifier] = specifier.lexemes := List.append_nil _
              rw [whole, readList_specifier onlyTypes specifier rfl]
              rfl
      | next :: rest, ih =>
          have whole : tokensOf (listLexemes trailing (specifier :: next :: rest)) =
              tokensOf specifier.lexemes ++
                Lexeme.comma.token 0 :: tokensOf (listLexemes trailing (next :: rest)) :=
            List.map_append
          rw [whole, List.append_assoc, List.cons_append, behind, ih]
          rfl

/-! ## Reading an import -/

/-- The tokens of the word `from` and the module. -/
def moduleTokens (module : StringLiteral) : List Token :=
  tokensOf [.keyword "from" rfl, .string module]

theorem readModule_moduleTokens (module : StringLiteral) :
    readModule (moduleTokens module) = module.content := unquote_text module

/-- **The names besides a default name are read back**, up to the word `from`. -/
theorem readNamespaceOrList_append (others : Option Others) (module : StringLiteral) :
    readNamespaceOrList onlyTypes
        (tokensOf ((others.map (·.lexemes)).getD []) ++ moduleTokens module) =
      some ((others.map (·.names onlyTypes)).getD [], moduleTokens module) := by
  match others with
  | none => rfl
  | some (.whole name) => rfl
  | some (.list specifiers trailing) =>
      have whole : tokensOf (Others.list specifiers trailing).lexemes ++ moduleTokens module =
          Lexeme.openBrace.token 0 :: (tokensOf (listLexemes trailing specifiers) ++
            Lexeme.closeBrace.token 0 :: moduleTokens module) := by
        simp [tokensOf, Others.lexemes]
      rw [Option.map_some, Option.getD_some, whole]
      exact readList_append onlyTypes trailing specifiers (moduleTokens module)

/-- The binding that names of an import from a module make. -/
def bindingOf (module : StringLiteral) (names : List ImportedName) : Option ImportBinding :=
  (names.find? (·.localName = propsName.toList)).map fun name =>
    ⟨module.content, name.aliasOf, name.typeOnly⟩

theorem readNames_append (defaultNames : List ImportedName) (others : Option Others)
    (module : StringLiteral) :
    readNames onlyTypes defaultNames
        (tokensOf ((others.map (·.lexemes)).getD []) ++ moduleTokens module) =
      bindingOf module (defaultNames ++ (others.map (·.names onlyTypes)).getD []) := by
  simp only [readNames, readNamespaceOrList_append, Option.bind_eq_bind, Option.bind_some,
    readModule_moduleTokens, bindingOf]
  cases (defaultNames ++ (others.map (·.names onlyTypes)).getD []).find?
    (·.localName = propsName.toList) <;> rfl

/-- The word `type`, if an import begins with it. -/
def typeTokens (onlyTypes : Bool) : List Token :=
  if onlyTypes then [(Lexeme.keyword "type" rfl).token 0] else []

/-- An import without a default name, before a token that can begin its other names. -/
theorem binding?_of_noDefault {first : Token} (noWord : first.isIdentifier = false)
    (noComma : first.kind ≠ .comma) (noEquals : first.kind ≠ .equals) (rest : List Token) :
    binding? (typeTokens onlyTypes ++ first :: rest) = readNames onlyTypes [] (first :: rest) := by
  have noType (word : String) : first.isWord word = false := by
    refine Bool.eq_false_iff.mpr fun isWord => ?_
    rw [Token.isIdentifier_of_isWord isWord] at noWord
    cases noWord
  cases onlyTypes with
  | true =>
      have isType : ((Lexeme.keyword "type" rfl).token 0).isWord "type" = true := rfl
      simp [binding?, typeTokens, isType, importsTypes, noType, noComma, noEquals, noWord]
  | false => simp [binding?, typeTokens, noType, noWord]

/-- An import with a default name, which an equals sign does not follow. -/
theorem binding?_of_default (name : Name) {rest : List Token}
    (noEquals : rest.head?.any (·.kind = .equals) = false) :
    binding? (typeTokens onlyTypes ++ name.lexeme.token 0 :: rest) =
      readNames onlyTypes [⟨name.text, some "default".toList, onlyTypes⟩]
        (if rest.head?.any (·.kind = .comma) then rest.tail else rest) := by
  have noType := isWord_name name "type" (by simp)
  have noFrom := isWord_name name "from" (by simp)
  have isWord : (name.lexeme.token 0).isIdentifier = true := rfl
  have kind : (name.lexeme.token 0).kind = .identifier := rfl
  have text : (name.lexeme.token 0).text = name.text := rfl
  cases onlyTypes with
  | true =>
      have isType : ((Lexeme.keyword "type" rfl).token 0).isWord "type" = true := rfl
      simp [binding?, typeTokens, isType, importsTypes, noFrom, isWord, kind, text, noEquals]
  | false => simp [binding?, typeTokens, noType, isWord, text, noEquals]

/-- **The names of an import are read back.** -/
theorem binding?_tokens (written : WrittenImport) :
    binding? (tokensOf written.lexemes) = bindingOf written.module written.names := by
  obtain ⟨onlyTypes, defaultName, others, module, nonempty⟩ := written
  have whole : tokensOf (WrittenImport.lexemes ⟨onlyTypes, defaultName, others, module, nonempty⟩) =
      typeTokens onlyTypes ++ (tokensOf
        (WrittenImport.nameLexemes ⟨onlyTypes, defaultName, others, module, nonempty⟩) ++
          moduleTokens module) := by
    cases onlyTypes <;> simp [WrittenImport.lexemes, tokensOf, moduleTokens, typeTokens]
  have read (defaultNames : List ImportedName) :=
    readNames_append onlyTypes defaultNames others module
  rw [whole]
  match defaultName, others with
  | none, none => simp at nonempty
  | none, some others =>
      refine Eq.trans ?_ (read [])
      cases others with
      | whole name =>
          exact binding?_of_noDefault onlyTypes rfl TokenKind.noConfusion TokenKind.noConfusion _
      | list specifiers trailing =>
          exact binding?_of_noDefault onlyTypes rfl TokenKind.noConfusion TokenKind.noConfusion _
  | some name, none => exact (binding?_of_default onlyTypes name rfl).trans (read _)
  | some name, some others => exact (binding?_of_default onlyTypes name rfl).trans (read _)

end Import

end ComponentTsx
