import ComponentTsx.Proofs.Declaration.Relocation
import ComponentTsx.Props
import Mathlib.Data.List.Basic

/-!
# What the kinds of declarations depend on

Whether a statement declares `Props`, and by what, depends on the kinds of its
tokens, on the texts of its words and on which strings name `Props`
(`Token.KeepsNames`); the texts of other strings only name modules and what
modules export.  A token reduced to this is its outline.  So texts whose tokens
have the same outlines, comments aside, have declarations of the same kinds in
the same order (`map_shape_scan_eq`).
-/

namespace ComponentTsx

set_option autoImplicit false

/-! ## Names -/

/-- Whether a name is the one that describes properties. -/
def isPropsName (name : Text) : Bool := name = propsName.toList

/-- A change of tokens that keeps, besides words, which tokens name `Props`. -/
structure Token.KeepsNames (move : Token → Token) : Prop extends KeepsWords move where
  name : ∀ token, (Import.name? (move token)).map isPropsName =
    (Import.name? token).map isPropsName

namespace Import

variable {move : Token → Token} (keeps : Token.KeepsNames move)

/-- Whether an imported name is `Props` here. -/
def bindsProps (name : ImportedName) : Bool := isPropsName name.localName

/-- If all that is made of a name depends on is whether it is `Props`, other names do as well. -/
theorem bind_eq_of_map_isPropsName {α : Type} {found other : Option Text}
    {read readOther : Text → Option α} (same : other.map isPropsName = found.map isPropsName)
    (alike : ∀ name otherName, isPropsName otherName = isPropsName name →
      readOther otherName = read name) : other.bind readOther = found.bind read := by
  cases found with
  | none =>
      rw [Option.map_none, Option.map_eq_none_iff] at same
      rw [same]
      rfl
  | some name =>
      obtain ⟨otherName, rfl, sameName⟩ := Option.map_eq_some_iff.mp same
      exact alike name otherName sameName

include keeps

theorem head?_name?_map (tokens : List Token) :
    ((tokens.map move).head?.bind name?).map isPropsName =
      (tokens.head?.bind name?).map isPropsName := by
  cases tokens with
  | nil => rfl
  | cons first rest => exact keeps.name first

theorem readAlias_names (typeOnly : Bool) {exported other : Text}
    (same : isPropsName other = isPropsName exported) (tokens : List Token) :
    (readAlias typeOnly other (tokens.map move)).map (Prod.map bindsProps id) =
      (readAlias typeOnly exported tokens).map (Prod.map bindsProps id) := by
  cases tokens with
  | nil => simp [readAlias, bindsProps, same]
  | cons next others =>
      have later := head?_name?_map keeps others
      rw [List.map_cons, readAlias, readAlias, keeps.isWord]
      by_cases isAs : next.isWord "as"
      · rw [if_pos isAs, if_pos isAs]
        have forget (exported : Text) (found : Option Text) :
            (do
              let localName ← found
              return ((⟨localName, if exported = localName then none else some exported,
                typeOnly⟩ : ImportedName), 2)).map (Prod.map bindsProps id) =
              (found.map isPropsName).map (·, 2) := by
          cases found <;> rfl
        rw [forget, forget, later]
      · rw [if_neg isAs, if_neg isAs]
        simp [bindsProps, same]

theorem readName_names (typeOnly : Bool) (first : Token) (rest : List Token) :
    (readName typeOnly (move first) (rest.map move)).map (Prod.map bindsProps id) =
      (readName typeOnly first rest).map (Prod.map bindsProps id) := by
  rw [readName, readName, keeps.isWord, marksType_map keeps.toKeepsWords]
  by_cases isType : (first.isWord "type" && marksType rest) = true
  · rw [if_pos isType, if_pos isType]
    have longer (found : Option (ImportedName × Nat)) :
        (found.bind fun read => some (read.1, read.2 + 1)).map (Prod.map bindsProps id) =
          (found.map (Prod.map bindsProps id)).map (Prod.map id (· + 1)) := by
      cases found <;> rfl
    simp only [Option.bind_eq_bind, Option.map_bind]
    refine bind_eq_of_map_isPropsName (head?_name?_map keeps rest) fun name otherName same => ?_
    have later := readAlias_names keeps true same rest.tail
    rw [List.map_tail] at later
    exact (longer _).trans ((congrArg _ later).trans (longer _).symm)
  · rw [if_neg isType, if_neg isType]
    simp only [Option.bind_eq_bind, Option.map_bind]
    exact bind_eq_of_map_isPropsName (keeps.name first) fun name otherName same =>
      readAlias_names keeps typeOnly same rest

omit keeps in
/-- Another name before those of a list. -/
theorem map_any_cons (name : ImportedName) (change : List Token → List Token)
    (found : Option (List ImportedName × List Token)) :
    (found.map fun read => (name :: read.1, read.2)).map (Prod.map (·.any bindsProps) change) =
      (found.map (Prod.map (·.any bindsProps) change)).map
        (Prod.map (bindsProps name || ·) id) := by
  cases found <;> rfl

theorem readList_names (typeOnly : Bool) (tokens : List Token) :
    (readList typeOnly (tokens.map move)).map (Prod.map (·.any bindsProps) id) =
      (readList typeOnly tokens).map (Prod.map (·.any bindsProps) (List.map move)) := by
  -- The names may differ, but not how many tokens each takes, so the rests go on in step.
  induction tokens using readList.induct with
  | case1 => simp [readList]
  | case2 first rest closes =>
      simp only [List.map_cons, readList_cons, keeps.kind, closes, if_true]
      rfl
  | case3 first rest noEnd ih =>
      have sameName := readName_names keeps typeOnly first rest
      simp only [List.map_cons, readList_cons, keeps.kind, if_neg noEnd]
      cases read : readName typeOnly first rest with
      | none =>
          rw [read, Option.map_none, Option.map_eq_none_iff] at sameName
          rw [sameName]
          rfl
      | some pair =>
          obtain ⟨name, length⟩ := pair
          rw [read, Option.map_some] at sameName
          obtain ⟨⟨otherName, otherLength⟩, readToo, samePair⟩ := Option.map_eq_some_iff.mp sameName
          obtain ⟨sameBinds, sameLength⟩ := Prod.mk.inj samePair
          simp only [id] at sameLength
          rw [readToo, sameLength]
          simp only [Option.bind_some, ← List.map_drop]
          cases after : rest.drop length with
          | nil => rfl
          | cons next others =>
              have later := ih length next others after
              simp only [List.map_cons, keeps.kind]
              by_cases isComma : next.kind = .comma
              · rw [if_pos isComma, if_pos isComma]
                refine (map_any_cons otherName id _).trans ?_
                rw [later, sameBinds]
                exact (map_any_cons name (List.map move) _).symm
              · rw [if_neg isComma, if_neg isComma]
                split
                · simp [sameBinds]
                · rfl

theorem readNamespaceOrList_names (typeOnly : Bool) (tokens : List Token) :
    (readNamespaceOrList typeOnly (tokens.map move)).map (Prod.map (·.any bindsProps) id) =
      (readNamespaceOrList typeOnly tokens).map (Prod.map (·.any bindsProps) (List.map move)) := by
  cases tokens with
  | nil => rfl
  | cons first rest =>
      have list := readList_names keeps typeOnly rest
      simp only [List.map_cons, readNamespaceOrList, keeps.kind]
      by_cases isStar : first.kind = .star
      · rw [if_pos isStar, if_pos isStar]
        cases rest with
        | nil => rfl
        | cons asWord others =>
            cases others with
            | nil => rfl
            | cons name after =>
                simp only [List.map_cons, keeps.isWord, keeps.isIdentifier]
                by_cases named : (asWord.isWord "as" && name.isIdentifier) = true
                · have isWord : name.kind = .identifier := by
                    simpa [Token.isIdentifier] using (Bool.and_eq_true_iff.mp named).2
                  rw [if_pos named, if_pos named, keeps.word name isWord]
                  rfl
                · rw [if_neg named, if_neg named]
                  rfl
      · rw [if_neg isStar, if_neg isStar]
        split
        · exact list
        · rfl

omit keeps in
/-- An import of names binds `Props` if one of the names does. -/
theorem isSome_readNames (typeOnly : Bool) (defaultName : List ImportedName)
    (tokens : List Token) :
    (readNames typeOnly defaultName tokens).isSome =
      (readNamespaceOrList typeOnly tokens).any fun read =>
        defaultName.any bindsProps || read.1.any bindsProps := by
  rw [readNames]
  cases readNamespaceOrList typeOnly tokens with
  | none => rfl
  | some read =>
      obtain ⟨names, after⟩ := read
      rw [Option.any_some, ← List.any_append, ← List.isSome_find?]
      simp only [Option.bind_eq_bind, Option.bind_some]
      cases found : (defaultName ++ names).find? fun name => name.localName = propsName.toList with
      | none => exact congrArg Option.isSome found.symm
      | some name => exact congrArg Option.isSome found.symm

theorem isSome_readNames_map (typeOnly : Bool) (defaultName : List ImportedName)
    (tokens : List Token) :
    (readNames typeOnly defaultName (tokens.map move)).isSome =
      (readNames typeOnly defaultName tokens).isSome := by
  have onlyNames (change : List Token → List Token)
      (found : Option (List ImportedName × List Token)) :
      (found.any fun read => defaultName.any bindsProps || read.1.any bindsProps) =
        (found.map (Prod.map (·.any bindsProps) change)).any
          fun read => defaultName.any bindsProps || read.1 := by
    cases found <;> rfl
  rw [isSome_readNames, isSome_readNames, onlyNames id, readNamespaceOrList_names keeps,
    ← onlyNames]

theorem isSome_binding?_map (tokens : List Token) :
    (binding? (tokens.map move)).isSome = (binding? tokens).isSome := by
  simp only [binding?, List.head?_map, Option.any_map, keeps.isWord, ← List.map_tail,
    importsTypes_map keeps.toKeepsWords, ← apply_ite (List.map move)]
  cases (if tokens.head?.any (·.isWord "type") && importsTypes tokens.tail then tokens.tail
    else tokens) with
  | nil => rfl
  | cons first rest =>
      have whole (typeOnly : Bool) := isSome_readNames_map keeps typeOnly [] (first :: rest)
      simp only [List.map_cons] at whole
      simp only [List.map_cons, keeps.isIdentifier, List.head?_map, Option.any_map, keeps.kind,
        ← List.map_tail, ← apply_ite (List.map move)]
      by_cases isIdentifier : first.isIdentifier
      · have isWord : first.kind = .identifier := by simpa [Token.isIdentifier] using isIdentifier
        rw [if_pos isIdentifier, if_pos isIdentifier, keeps.word first isWord]
        split
        · split <;> rfl
        · exact isSome_readNames_map keeps _ _ _
      · rw [if_neg isIdentifier, if_neg isIdentifier]
        exact whole _

end Import

/-! ## Kinds of declarations -/

/-- The kind of declaration in words. -/
def Declaration.shape (declaration : Declaration) : String := Props.kindName ⟨declaration.props⟩

namespace Props

/-- The kind of the properties is that of the first declaration that has one. -/
theorem kindName_ofDeclarations (declarations : List Declaration) :
    (ofDeclarations declarations).kindName =
      ((declarations.map Declaration.shape).find? (· ≠ "none")).getD "none" := by
  induction declarations with
  | nil => rfl
  | cons declaration rest ih =>
      rw [ofDeclarations, List.findSome?_cons, List.map_cons, List.find?_cons, Declaration.shape]
      cases props : declaration.props with
      | none => exact ih
      | some found => cases found <;> rfl

theorem kindName_ofPreamble {first second : Text}
    (same : (Declaration.scan first).map Declaration.shape =
      (Declaration.scan second).map Declaration.shape) :
    (ofPreamble (some first)).kindName = (ofPreamble (some second)).kindName := by
  have sameKind := kindName_ofDeclarations (Declaration.scan first)
  rw [same, ← kindName_ofDeclarations] at sameKind
  exact sameKind

end Props

namespace Declaration

section Names

variable {move : Token → Token} (keeps : Token.KeepsNames move)

include keeps

theorem kindName_classify_map (first second : Text) (statement following later : List Token) :
    Props.kindName ⟨classify first (statement.map move) following⟩ =
      Props.kindName ⟨classify second statement later⟩ := by
  have sameImport (tokens : List Token) : Props.kindName
        ⟨(Import.binding? (tokens.map move)).map PropsDeclaration.imported⟩ =
      Props.kindName ⟨(Import.binding? tokens).map PropsDeclaration.imported⟩ := by
    have same := Import.isSome_binding?_map keeps tokens
    cases found : Import.binding? tokens <;>
      cases foundToo : Import.binding? (tokens.map move) <;> simp_all [Props.kindName]
  rw [classify, stripModifiers_map keeps.toKeepsWords, classify]
  obtain ⟨isDefault, stripped⟩ := stripModifiers false statement
  cases stripped with
  | nil => rfl
  | cons keyword rest =>
      simp only [Prod.map, id, List.map_cons, keeps.isWord, List.head?_map, ← List.map_tail,
        Option.any_map, followsInterfaceName_move keeps.toKeepsWords,
        followsAliasName_move keeps.toKeepsWords]
      split
      · split <;> rfl
      · split
        · split <;> rfl
        · split
          · exact sameImport rest
          · rfl

theorem map_shape_ofStatement? (first second : Text) (statement : Statement) :
    (ofStatement? first (statement.relocate move)).map shape =
      (ofStatement? second statement).map shape := by
  have same := kindName_classify_map keeps first second (Statement.significant statement.tokens)
    (statement.following.map move) statement.following
  simp only [ofStatement?, Statement.relocate, Statement.significant_map keeps.toKeepsWords,
    List.head?_map, List.getLast?_map, Option.bind_eq_bind]
  cases (Statement.significant statement.tokens).head? with
  | none => rfl
  | some head =>
      cases (Statement.significant statement.tokens).getLast? with
      | none => rfl
      | some last => exact congrArg some same

/-- The kinds of declarations of a text depend on no more than its tokens without comments. -/
theorem map_shape_scan_eq (source : Text) :
    (scan source).map shape =
      (Statement.split (((tokenize source).filter (!·.kind.isTrivia)).map move)).filterMap
        fun statement => (ofStatement? [] statement).map shape := by
  have moved := Statement.splitFrom_map keeps.toKeepsWords 0 []
    ((tokenize source).filter (!·.kind.isTrivia))
  rw [List.map_nil] at moved
  rw [scan, statements, Statement.split, Statement.split, moved, List.map_filterMap,
    List.filterMap_map]
  exact List.filterMap_congr fun statement _ =>
    (map_shape_ofStatement? keeps [] source statement).symm

end Names

end Declaration

end ComponentTsx
