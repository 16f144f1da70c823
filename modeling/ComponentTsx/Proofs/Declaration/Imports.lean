import ComponentTsx.Proofs.Declaration.ClauseExtent
import ComponentTsx.Proofs.Declaration.Relocation
import ComponentTsx.Proofs.Import.Reading

/-!
# Scanning undoes the writing of imports

A preamble that spells an import, with gaps between the tokens and line breaks
inside the braces, is one declaration: nothing in an import but the closing
brace could end a statement, and behind that stands the word `from`.  It
declares `Props` if one of the names that it introduces is `Props`, and then by
the first of these names (`scan_of_spells_import`).
-/

namespace ComponentTsx

set_option autoImplicit false

/-! ## Statements of an import -/

namespace Lexeme

/-- Lexemes at none of which a statement ends. -/
def Undivided (depth : Nat) (lexemes : List Lexeme) : Prop :=
  Statement.Undivided depth (lexemes.map (·.token 0))

/-- A lexeme that ends no statement, whatever follows it. -/
def NeverEnds (lexeme : Lexeme) : Prop := Statement.NeverEnds (lexeme.token 0)

theorem undivided_append {front back : List Lexeme} (neverEnd : ∀ lexeme ∈ front, NeverEnds lexeme)
    (depth : Nat) :
    Undivided depth (front ++ back) ↔ Undivided (front.foldl Lexeme.depthAfter depth) back := by
  rw [Undivided, List.map_append, Statement.undivided_append (List.forall_mem_map.mpr neverEnd),
    Statement.depthThrough, List.foldl_map]
  rfl

theorem undivided_of_neverEnds {lexemes : List Lexeme}
    (neverEnd : ∀ lexeme ∈ lexemes, NeverEnds lexeme) (depth : Nat) : Undivided depth lexemes :=
  Statement.undivided_of_neverEnds (List.forall_mem_map.mpr neverEnd) depth

theorem neverEnds_word (text : Text) (isWord : text.isWord) : NeverEnds (.word text isWord) :=
  ⟨TokenKind.noConfusion, TokenKind.noConfusion⟩

theorem neverEnds_string (literal : StringLiteral) : NeverEnds (.string literal) :=
  ⟨TokenKind.noConfusion, TokenKind.noConfusion⟩

theorem neverEnds_marks : NeverEnds .comma ∧ NeverEnds .star ∧ NeverEnds .openBrace := by
  refine ⟨?_, ?_, ?_⟩ <;> exact ⟨TokenKind.noConfusion, TokenKind.noConfusion⟩

/-- No statement ends at a closing brace before the word `from`. -/
theorem undivided_from (depth : Nat) (module : StringLiteral) :
    Undivided depth [.closeBrace, .keyword "from" rfl, .string module] := by
  have noStart : ((Lexeme.keyword "from" rfl).token 0).isOneOf Statement.startWords = false := by
    decide
  have closes : (Lexeme.closeBrace.token 0).kind = .closing .brace := rfl
  have later : ∀ lexeme ∈ [.keyword "from" rfl, .string module], NeverEnds lexeme := by
    simp only [List.forall_mem_cons]
    exact ⟨neverEnds_word _ rfl, neverEnds_string module, List.forall_mem_nil _⟩
  refine ⟨?_, undivided_of_neverEnds later _⟩
  simp only [Statement.endsWith, closes, List.map_cons, List.head?_cons, Option.any_some, noStart,
    Bool.and_false]

end Lexeme

namespace WrittenImport

open Lexeme Import

theorem neverEnds_name (name : Name) : NeverEnds name.lexeme := neverEnds_word _ name.isWord

theorem neverEnds_keyword (word : String) (isWord : Text.isWord word.toList) :
    NeverEnds (.keyword word isWord) := neverEnds_word _ isWord

theorem neverEnds_specifier (specifier : Specifier) :
    ∀ lexeme ∈ specifier.lexemes, NeverEnds lexeme := by
  have exported : NeverEnds specifier.exported := by
    cases specifier with
    | named _ exported _ => exact neverEnds_name exported
    | quoted _ exported _ => exact neverEnds_string exported
  have renamed : ∀ lexeme ∈ Specifier.asLexemes specifier.rename, NeverEnds lexeme := by
    cases specifier.rename with
    | none => exact fun _ none => nomatch none
    | some name => simp [Specifier.asLexemes, neverEnds_keyword "as" rfl, neverEnds_name]
  rw [Specifier.lexemes, List.forall_mem_append, List.forall_mem_cons]
  refine ⟨?_, exported, renamed⟩
  cases specifier.typeOnly <;> simp [neverEnds_keyword "type" rfl]

theorem neverEnds_list (trailing : Bool) (specifiers : List Specifier) :
    ∀ lexeme ∈ listLexemes trailing specifiers, NeverEnds lexeme := by
  have comma := neverEnds_marks.1
  induction specifiers with
  | nil => exact fun _ none => nomatch none
  | cons specifier rest ih =>
      cases rest with
      | nil =>
          rw [listLexemes, List.forall_mem_append]
          refine ⟨neverEnds_specifier specifier, ?_⟩
          cases trailing <;> simp [comma]
      | cons next rest =>
          rw [listLexemes, List.forall_mem_append, List.forall_mem_cons]
          · exact ⟨neverEnds_specifier specifier, comma, ih⟩
          · exact List.cons_ne_nil next rest

/-- The lexemes of an import, the word `import` first. -/
def allLexemes (written : WrittenImport) : List Lexeme :=
  .keyword "import" rfl :: written.lexemes

theorem undivided_others (others : Others) (module : StringLiteral) (depth : Nat) :
    Undivided depth (others.lexemes ++ [.keyword "from" rfl, .string module]) := by
  cases others with
  | whole name =>
      refine undivided_of_neverEnds ?_ depth
      simp [Others.lexemes, neverEnds_marks, neverEnds_keyword "as" rfl,
        neverEnds_keyword "from" rfl, neverEnds_name, neverEnds_string]
  | list specifiers trailing =>
      have front : ∀ lexeme ∈ .openBrace :: listLexemes trailing specifiers, NeverEnds lexeme :=
        List.forall_mem_cons.mpr ⟨neverEnds_marks.2.2, neverEnds_list trailing specifiers⟩
      have whole : (Others.list specifiers trailing).lexemes ++
          [.keyword "from" rfl, .string module] =
            (.openBrace :: listLexemes trailing specifiers) ++
              [.closeBrace, .keyword "from" rfl, .string module] := by
        simp [Others.lexemes]
      rw [whole, undivided_append front]
      exact undivided_from _ module

/-- The splitter ends no statement in an import. -/
theorem undivided (written : WrittenImport) : Undivided 0 written.allLexemes := by
  obtain ⟨onlyTypes, defaultName, others, module, nonempty⟩ := written
  have names (depth : Nat) : Undivided depth
      (nameLexemes ⟨onlyTypes, defaultName, others, module, nonempty⟩ ++
        [.keyword "from" rfl, .string module]) := by
    match defaultName, others with
    | none, none => simp at nonempty
    | none, some others => exact undivided_others others module depth
    | some name, none =>
        refine undivided_of_neverEnds ?_ depth
        simp [nameLexemes, neverEnds_keyword "from" rfl, neverEnds_name, neverEnds_string]
    | some name, some others =>
        have front : ∀ lexeme ∈ [name.lexeme, .comma], NeverEnds lexeme := by
          simp [neverEnds_name, neverEnds_marks]
        exact (undivided_append front depth).mpr (undivided_others others module _)
  have front : ∀ lexeme ∈ .keyword "import" rfl ::
      if onlyTypes then [Lexeme.keyword "type" rfl] else [], NeverEnds lexeme := by
    cases onlyTypes <;> simp [neverEnds_keyword "import" rfl, neverEnds_keyword "type" rfl]
  have whole : allLexemes ⟨onlyTypes, defaultName, others, module, nonempty⟩ =
      (.keyword "import" rfl :: if onlyTypes then [Lexeme.keyword "type" rfl] else []) ++
        (nameLexemes ⟨onlyTypes, defaultName, others, module, nonempty⟩ ++
          [.keyword "from" rfl, .string module]) := by
    simp [allLexemes, lexemes]
  rw [whole, undivided_append front]
  exact names _

end WrittenImport

/-! ## Declarations -/

namespace Declaration

/--
**Scanning undoes the writing of imports.**  A preamble that spells an import is one declaration.
It is of the first of the import's names that is `Props`, with the module, the name that this one
has there and whether it is a type only; and it declares nothing if no name is `Props`.
-/
theorem scan_of_spells_import (written : WrittenImport) {text : Text}
    (spells : Spells 0 written.allLexemes text) :
    scan text =
      [⟨(written.names.find? (·.localName = propsName.toList)).map fun name =>
          .imported ⟨written.module.content, name.aliasOf, name.typeOnly⟩,
        ⟨0, text.byteLength⟩⟩] := by
  obtain ⟨tokens, stop, one, same, ⟨first, isFirst, start⟩, last, isLast, ends⟩ :=
    Statement.exists_splitFrom_of_spells spells written.undivided 0 true []
  have declares : classify text (Statement.significant tokens) [⟨.endOfFile, stop, []⟩] =
      (Import.bindingOf written.module written.names).map .imported := by
    obtain ⟨keyword, rest, isTokens, isKeyword, sameRest⟩ := List.map_eq_cons_iff.mp same
    have isImport : keyword.isWord "import" :=
      (Token.relocates_placeless.isWord keyword "import").symm.trans (congrArg _ isKeyword)
    have noInterface : keyword.isWord "interface" = false :=
      Token.isWord_eq_false isImport (by decide)
    have noType : keyword.isWord "type" = false := Token.isWord_eq_false isImport (by decide)
    have stripped := stripModifiers_append (areModifiers_nil false) isImport (by decide) rest
    rw [List.nil_append] at stripped
    have read : Import.binding? rest = Import.bindingOf written.module written.names := by
      rw [← Import.binding?_map Token.relocates_placeless, sameRest]
      exact Import.binding?_tokens written
    rw [isTokens]
    simp only [classify, stripped, noInterface, noType, isImport, read, Bool.false_and,
      Bool.false_eq_true, if_false]
    rfl
  have isStatement : statements text = [⟨tokens, [⟨.endOfFile, stop, []⟩]⟩] := one
  rw [scan_eq_cons isStatement isFirst isLast, start, ends, declares, Nat.zero_add,
    Import.bindingOf, Option.map_map]
  rfl

/-- A default name and a list on several lines, with a comment, a string and a comma at the end. -/
theorem scan_of_spells_import_list :
    let props : Import.Name := ⟨"Props".toList, rfl, by decide⟩
    let written : WrittenImport :=
      { onlyTypes := false
        defaultName := some ⟨"D".toList, rfl, by decide⟩
        others := some (.list [.quoted true ⟨'\'', "a-b".toList, .inl rfl, by simp⟩ props,
          .named false props (some ⟨"Q".toList, rfl, by decide⟩)] true)
        module := ⟨'"', "./m".toList, .inr rfl, by simp⟩
        nonempty := .inl rfl }
    let text : Text :=
      "import D,\x7b\n type 'a-b' as Props,/* * */\n Props as Q, \x7d from\"./m\"".toList
    Spells 0 written.allLexemes text ∧
      scan text = [⟨some (.imported ⟨"./m".toList, some "a-b".toList, true⟩), ⟨0, 64⟩⟩] := by
  intro props written text
  have none (allowed : Prop) : IsGap allowed [] := .nil
  have space (allowed : Prop) : IsGap allowed [' '] := .blank rfl .nil
  have line {allowed : Prop} (here : allowed) : IsGap allowed "\n ".toList :=
    .lineBreak here (space _)
  have comment {allowed : Prop} (here : allowed) :
      IsGap allowed ('/' :: '*' :: (" * ".toList ++ '*' :: '/' :: "\n ".toList)) :=
    .comment (by decide) (line here)
  have spells : Spells 0 written.allLexemes _ :=
    .next (space _) (by decide) (.next (none _) (by decide) (.next (none _) (by decide)
      (.next (line (by decide)) (by decide) (.next (space _) (by decide)
        (.next (space _) (by decide) (.next (space _) (by decide) (.next (none _) (by decide)
          (.next (comment (by decide)) (by decide) (.next (space _) (by decide)
            (.next (space _) (by decide) (.next (none _) (by decide) (.next (space _) (by decide)
              (.next (space _) (by decide) (.next (none _) (by decide) (.last _)))))))))))))))
  exact ⟨spells, (scan_of_spells_import written spells).trans (by decide +kernel)⟩

end Declaration

end ComponentTsx
