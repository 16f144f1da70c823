import ComponentTsx.Declaration
import ComponentTsx.Proofs.Statement.Relocation

/-!
# Declarations of tokens at other places

Import bindings and parameter names are read from the kinds and texts of tokens
alone.  A clause's text is cut from the source, so it is the same in a source
with more text before it once the tokens are moved by the length of that text.
Hence a statement declares the same wherever it stands (`ofStatement?_append`).
-/

namespace ComponentTsx

set_option autoImplicit false

section Words

variable {move : Token → Token} (keeps : Token.KeepsWords move)

include keeps

/-! ## Words that decide -/

namespace Import

theorem marksType_map (rest : List Token) : marksType (rest.map move) = marksType rest := by
  simp only [marksType, List.head?_map, Option.any_map, keeps.kind, keeps.isWord]

theorem importsTypes_map (rest : List Token) :
    importsTypes (rest.map move) = importsTypes rest := by
  simp only [importsTypes, List.head?_map, Option.any_map, keeps.kind, keeps.isWord]

end Import

namespace Declaration

theorem stripModifiers_map (afterExport : Bool) (tokens : List Token) :
    stripModifiers afterExport (tokens.map move) =
      Prod.map id (List.map move) (stripModifiers afterExport tokens) := by
  induction tokens generalizing afterExport with
  | nil => rfl
  | cons first rest ih =>
      cases rest with
      | nil => rfl
      | cons next rest =>
          have later := ih (first.isWord "export")
          rw [List.map_cons] at later
          simp only [List.map_cons, stripModifiers, keeps.isOneOf, keeps.isWord,
            keeps.isIdentifier, later]
          split
          · rfl
          · rfl

theorem followsInterfaceName_move (token : Token) :
    followsInterfaceName (move token) = followsInterfaceName token := by
  simp only [followsInterfaceName, keeps.kind, keeps.isWord]

theorem followsAliasName_move (token : Token) :
    followsAliasName (move token) = followsAliasName token := by
  simp only [followsAliasName, keeps.kind]

end Declaration

end Words

section Relocation

variable {move : Token → Token} (relocates : Token.Relocates move)

include relocates

/-! ## Imports -/

namespace Import

theorem name?_move (token : Token) : name? (move token) = name? token := by
  simp only [name?, relocates.kind, relocates.text]

theorem moduleName_map (token : Option Token) : moduleName (token.map move) = moduleName token := by
  cases token with
  | none => rfl
  | some token => simp only [Option.map_some, moduleName, relocates.kind, relocates.text]

theorem readAlias_map (typeOnly : Bool) (exported : Text) (tokens : List Token) :
    readAlias typeOnly exported (tokens.map move) = readAlias typeOnly exported tokens := by
  cases tokens with
  | nil => rfl
  | cons next others =>
      simp only [List.map_cons, readAlias, relocates.isWord, List.head?_map, Option.bind_map,
        Function.comp_def, name?_move relocates]

theorem readName_map (typeOnly : Bool) (first : Token) (rest : List Token) :
    readName typeOnly (move first) (rest.map move) = readName typeOnly first rest := by
  simp only [readName, relocates.isWord, marksType_map relocates.toKeepsWords, List.head?_map,
    Option.bind_map, Function.comp_def, name?_move relocates, ← List.map_tail,
    readAlias_map relocates]

theorem readList_map (typeOnly : Bool) (tokens : List Token) :
    readList typeOnly (tokens.map move) =
      (readList typeOnly tokens).map (Prod.map id (List.map move)) := by
  induction tokens using readList.induct with
  | case1 => simp [readList]
  | case2 first rest closes =>
      simp only [List.map_cons, readList_cons, relocates.kind, closes, if_true]
      rfl
  | case3 first rest noEnd ih =>
      simp only [List.map_cons, readList_cons, relocates.kind, if_neg noEnd,
        readName_map relocates, ← List.map_drop]
      cases readName typeOnly first rest with
      | none => rfl
      | some read =>
          obtain ⟨name, length⟩ := read
          cases after : rest.drop length with
          | nil =>
              simp only [Option.bind_some, after]
              rfl
          | cons next others =>
              simp only [Option.bind_some, after, List.map_cons, relocates.kind,
                ih length next others after]
              by_cases isComma : next.kind = .comma
              · rw [if_pos isComma, if_pos isComma, Option.map_map, Option.map_map]
                rfl
              · rw [if_neg isComma, if_neg isComma]
                split <;> rfl

theorem readNamespaceOrList_map (typeOnly : Bool) (tokens : List Token) :
    readNamespaceOrList typeOnly (tokens.map move) =
      (readNamespaceOrList typeOnly tokens).map (Prod.map id (List.map move)) := by
  cases tokens with
  | nil => rfl
  | cons first rest =>
      simp only [List.map_cons, readNamespaceOrList, relocates.kind, readList_map relocates]
      by_cases isStar : first.kind = .star
      · rw [if_pos isStar, if_pos isStar]
        cases rest with
        | nil => rfl
        | cons asWord others =>
            cases others with
            | nil => rfl
            | cons name after =>
                simp only [List.map_cons, relocates.isWord, relocates.isIdentifier,
                  relocates.text]
                split <;> rfl
      · rw [if_neg isStar, if_neg isStar]
        split <;> rfl

theorem readAssigned_map (typeOnly : Bool) (tokens : List Token) :
    readAssigned typeOnly (tokens.map move) = readAssigned typeOnly tokens := by
  cases tokens with
  | nil => rfl
  | cons first rest =>
      have path : ((first :: rest).map move).takeWhile
            (fun token => token.kind = .identifier || token.kind = .dot) =
          ((first :: rest).takeWhile
            fun token => token.kind = .identifier || token.kind = .dot).map move := by
        simp only [List.takeWhile_map, Function.comp_def, relocates.kind]
      rw [List.map_cons] at path
      simp only [List.map_cons, readAssigned, relocates.isWord, List.head?_map, Option.any_map,
        relocates.kind, ← List.map_tail, path, List.flatMap_map, relocates.text,
        ← apply_ite (List.map move), moduleName_map relocates]

theorem readModule_map (tokens : List Token) :
    readModule (tokens.map move) = readModule tokens := by
  simp only [readModule, List.head?_map, Option.any_map, relocates.isWord, ← List.map_tail,
    moduleName_map relocates]

theorem readNames_map (typeOnly : Bool) (defaultName : List ImportedName) (tokens : List Token) :
    readNames typeOnly defaultName (tokens.map move) = readNames typeOnly defaultName tokens := by
  rw [readNames, readNamespaceOrList_map relocates, readNames]
  cases readNamespaceOrList typeOnly tokens with
  | none => rfl
  | some read => simp [readModule_map relocates]

theorem binding?_map (tokens : List Token) : binding? (tokens.map move) = binding? tokens := by
  simp only [binding?, List.head?_map, Option.any_map, relocates.isWord, ← List.map_tail,
    importsTypes_map relocates.toKeepsWords, ← apply_ite (List.map move)]
  cases (if tokens.head?.any (·.isWord "type") && importsTypes tokens.tail then tokens.tail
    else tokens) with
  | nil => rfl
  | cons first rest =>
      have whole (typeOnly : Bool) := readNames_map relocates typeOnly [] (first :: rest)
      simp only [List.map_cons] at whole
      simp only [List.map_cons, relocates.isIdentifier, List.head?_map, Option.any_map,
        relocates.kind, relocates.text, ← List.map_tail, readAssigned_map relocates,
        ← apply_ite (List.map move), readNames_map relocates, whole]

end Import

/-! ## Type parameter clauses -/

namespace GenericClause

theorem takeClosing_map (outer : Bracket) (inner : List Bracket) (tokens : List Token) :
    takeClosing outer inner (tokens.map move) =
      (takeClosing outer inner tokens).map (List.map move) := by
  induction tokens generalizing inner with
  | nil => rfl
  | cons token rest ih =>
      simp only [List.map_cons, takeClosing, relocates.kind, ih, Option.map_map]
      cases token.kind with
      | closing bracket =>
          cases inner with
          | nil => by_cases closes : bracket = outer <;> simp [closes]
          | cons innermost others =>
              by_cases closes : bracket = innermost <;> simp [closes, Function.comp_def]
      | _ => simp [Function.comp_def]

theorem paramNames_map (depth : Nat) (name : Option Text) (named : Bool) (tokens : List Token) :
    paramNames depth name named (tokens.map move) = paramNames depth name named tokens := by
  induction tokens generalizing depth name named with
  | nil => rfl
  | cons token rest ih =>
      simp only [List.map_cons, paramNames, relocates.kind, relocates.text, relocates.isWord, ih]

theorem tokens?_map (tokens : List Token) :
    tokens? (tokens.map move) = (tokens? tokens).map (List.map move) := by
  simp only [tokens?, List.dropWhile_map, Function.comp_def,
    Statement.isLineBreak_move relocates.toKeepsWords, relocates.kind]
  cases tokens.dropWhile fun token => Statement.isLineBreak token || token.kind.isTrivia with
  | nil => rfl
  | cons first rest =>
      simp only [List.map_cons, relocates.kind, takeClosing_map relocates]
      by_cases opens : first.kind = .opening .angle
      · simp [opens, Function.comp_def]
      · simp [opens]

end GenericClause

end Relocation

/-! ## Declarations of a longer source -/

namespace GenericClause

/-- A clause is the same in a source with more text before it. -/
theorem extract?_append (first second : Text) (tokens : List Token) :
    extract? (first ++ second) (tokens.map (Token.shift first.byteLength)) =
      extract? second tokens := by
  rw [extract?, tokens?_map (Token.relocates_shift _), extract?]
  cases tokens? tokens with
  | none => rfl
  | some clause =>
      simp only [Option.map_some, Option.bind_eq_bind, Option.bind_some, List.head?_map,
        List.getLast?_map, ← List.map_tail, ← List.map_dropLast,
        paramNames_map (Token.relocates_shift _), Option.bind_map, Function.comp_def,
        Token.start_shift, Token.stop_shift, Nat.add_comm _ first.byteLength,
        Text.slice?_append_add]

end GenericClause

namespace Declaration

/-- The declaration with its place moved right by a distance. -/
def shift (distance : Nat) (declaration : Declaration) : Declaration :=
  { declaration with span := declaration.span.shift distance }

theorem classify_append (first second : Text) (statement following : List Token) :
    classify (first ++ second) (statement.map (Token.shift first.byteLength))
        (following.map (Token.shift first.byteLength)) =
      classify second statement following := by
  have relocates := Token.relocates_shift first.byteLength
  rw [classify, stripModifiers_map relocates.toKeepsWords, classify]
  obtain ⟨isDefault, stripped⟩ := stripModifiers false statement
  cases stripped with
  | nil => rfl
  | cons keyword rest =>
      simp only [Prod.map, id, List.map_cons, relocates.isWord, List.head?_map, ← List.map_tail,
        Option.any_map, ← List.map_append, GenericClause.extract?_append,
        Import.binding?_map relocates, followsInterfaceName_move relocates.toKeepsWords,
        followsAliasName_move relocates.toKeepsWords]

/-- A statement declares the same in a source with more text before it, at its new place. -/
theorem ofStatement?_append (first second : Text) (statement : Statement) :
    ofStatement? (first ++ second) (statement.relocate (Token.shift first.byteLength)) =
      (ofStatement? second statement).map (shift first.byteLength) := by
  have relocates := Token.relocates_shift first.byteLength
  simp only [ofStatement?, Statement.relocate, Statement.significant_map relocates.toKeepsWords,
    List.head?_map, List.getLast?_map, classify_append, Option.bind_eq_bind, Option.bind_map,
    Function.comp_def, Token.span_shift, Span.cover_shift]
  cases (Statement.significant statement.tokens).head? with
  | none => rfl
  | some first =>
      cases (Statement.significant statement.tokens).getLast? with
      | none => rfl
      | some last => rfl

end Declaration

end ComponentTsx
