import ComponentTsx.Proofs.Declaration.Partition

/-!
# The grammar of local declarations

Without its comments and line breaks, a declaration that declares `Props` on its
own begins with modifiers, the keyword, the name and one of a few tokens.  The
modifiers are `export`, `declare` and, directly after `export`, `default`.

The reader of modifiers looks ahead to the next token and keeps only whether the
one before was `export`.  It stops at the end of the longest row of modifiers
that an identifier follows (`exists_modifiers`), and where a keyword follows the
row, it stops there (`stripModifiers_append`).  So a statement declares an
interface or a type alias exactly when it is of that form, and whatever else it
has in it, no other statement but an import declares anything
(`props_eq_iff_of_mem_scan`).
-/

namespace ComponentTsx

set_option autoImplicit false

namespace Token

theorem isWord_iff {word : String} {token : Token} :
    token.isWord word = true ↔ token.kind = .identifier ∧ token.text = word.toList := by
  simp [isWord]

theorem isIdentifier_of_isWord {word : String} {token : Token} (isWord : token.isWord word) :
    token.isIdentifier := by
  rw [isIdentifier, (isWord_iff.mp isWord).1]
  rfl

/-- A token is no more than one word. -/
theorem isWord_eq_false {word other : String} {token : Token} (isWord : token.isWord word)
    (different : word.toList ≠ other.toList) : token.isWord other = false := by
  rw [Bool.eq_false_iff]
  intro isOther
  exact different ((isWord_iff.mp isWord).2.symm.trans (isWord_iff.mp isOther).2)

theorem isOneOf_eq_false {word : String} {words : List String} {token : Token}
    (isWord : token.isWord word) (different : ∀ other ∈ words, word.toList ≠ other.toList) :
    token.isOneOf words = false := by
  rw [isOneOf, List.any_eq_false]
  intro other member
  rw [isWord_eq_false isWord (different other member)]
  exact Bool.false_ne_true

end Token

namespace Declaration

/-! ## The grammar -/

/--
A token that is a modifier where it stands: `export` or `declare` anywhere, `default` only after
`export`.
-/
def IsModifier (afterExport : Bool) (token : Token) : Prop :=
  token.isOneOf ["export", "declare"] ∨ afterExport ∧ token.isWord "default"

/-- A row of modifiers, before which `export` stands or not. -/
structure AreModifiers (afterExport : Bool) (modifiers : List Token) : Prop where
  first : ∀ token ∈ modifiers.head?, IsModifier afterExport token
  later : modifiers.IsChain fun previous token => IsModifier (previous.isWord "export") token

/-- Whether one of some modifiers is `default`. -/
def exportsDefault (modifiers : List Token) : Bool := modifiers.any (·.isWord "default")

/-- Tokens that begin with modifiers and `interface Props`, and go on as an interface does. -/
def BeginsInterface (tokens : List Token) : Prop :=
  ∃ modifiers keyword name next rest, tokens = modifiers ++ keyword :: name :: next :: rest ∧
    AreModifiers false modifiers ∧ keyword.isWord "interface" ∧ name.isWord "Props" ∧
    (next.kind = .opening .angle ∨ next.kind = .opening .brace ∨ next.isWord "extends")

/--
Tokens that begin with modifiers other than `default` and `type Props`, and go on as a type alias
does.
-/
def BeginsTypeAlias (tokens : List Token) : Prop :=
  ∃ modifiers keyword name next rest, tokens = modifiers ++ keyword :: name :: next :: rest ∧
    AreModifiers false modifiers ∧ exportsDefault modifiers = false ∧ keyword.isWord "type" ∧
    name.isWord "Props" ∧ (next.kind = .opening .angle ∨ next.kind = .equals)

/-- Tokens that begin with modifiers other than `default` and `import`. -/
def BeginsImport (tokens : List Token) : Prop :=
  ∃ modifiers keyword rest, tokens = modifiers ++ keyword :: rest ∧
    AreModifiers false modifiers ∧ exportsDefault modifiers = false ∧ keyword.isWord "import"

/-! ## Modifiers -/

variable {afterExport : Bool} {token : Token} {modifiers rest : List Token}

theorem areModifiers_nil (afterExport : Bool) : AreModifiers afterExport [] where
  first := fun _ none => nomatch none
  later := .nil

theorem areModifiers_cons : AreModifiers afterExport (token :: rest) ↔
    IsModifier afterExport token ∧ AreModifiers (token.isWord "export") rest := by
  constructor
  · rintro ⟨first, later⟩
    obtain ⟨next, later⟩ := List.isChain_cons.mp later
    exact ⟨first token rfl, next, later⟩
  · rintro ⟨isModifier, first, later⟩
    refine ⟨?_, List.isChain_cons.mpr ⟨first, later⟩⟩
    rintro _ ⟨⟩
    exact isModifier

theorem IsModifier.isIdentifier (isModifier : IsModifier afterExport token) :
    token.isIdentifier := by
  rcases isModifier with isOneOf | ⟨_, isDefault⟩
  · obtain ⟨word, _, isWord⟩ := List.any_eq_true.mp isOneOf
    exact Token.isIdentifier_of_isWord isWord
  · exact Token.isIdentifier_of_isWord isDefault

/-- Whether a modifier is `default` is settled by what stands before it, or by the word alone. -/
theorem IsModifier.and_isWord_default (isModifier : IsModifier afterExport token) :
    (afterExport && token.isWord "default") = token.isWord "default" := by
  rcases isModifier with isOneOf | ⟨isAfter, _⟩
  · obtain ⟨word, member, isWord⟩ := List.any_eq_true.mp isOneOf
    have noDefault : token.isWord "default" = false := by
      rcases List.mem_pair.mp member with rfl | rfl <;>
        exact Token.isWord_eq_false isWord (by decide)
    rw [noDefault, Bool.and_false]
  · rw [isAfter, Bool.true_and]

theorem isModifier_iff : IsModifier afterExport token ↔
    (token.isOneOf ["export", "declare"] || afterExport && token.isWord "default") = true := by
  rw [IsModifier, Bool.or_eq_true, Bool.and_eq_true]

/-- The reader of modifiers cuts off modifiers only, and finds `default` among them. -/
theorem exists_modifiers (afterExport : Bool) (tokens : List Token) :
    ∃ modifiers, tokens = modifiers ++ (stripModifiers afterExport tokens).2 ∧
      AreModifiers afterExport modifiers ∧
      (stripModifiers afterExport tokens).1 = exportsDefault modifiers := by
  induction tokens generalizing afterExport with
  | nil => exact ⟨[], rfl, areModifiers_nil afterExport, rfl⟩
  | cons first rest ih =>
      cases rest with
      | nil => exact ⟨[], rfl, areModifiers_nil afterExport, rfl⟩
      | cons next rest =>
          rw [stripModifiers]
          split
          · rename_i taken
            have isModifier := isModifier_iff.mpr (Bool.and_eq_true_iff.mp taken).1
            obtain ⟨modifiers, whole, areModifiers, isDefault⟩ := ih (first.isWord "export")
            refine ⟨first :: modifiers, congrArg (first :: ·) whole,
              areModifiers_cons.mpr ⟨isModifier, areModifiers⟩, ?_⟩
            simp only [isDefault, isModifier.and_isWord_default]
            rfl
          · exact ⟨[], rfl, areModifiers_nil afterExport, rfl⟩

/-- The reader of modifiers goes on to a keyword that follows them. -/
theorem stripModifiers_append {keyword : Token} {word : String}
    (areModifiers : AreModifiers afterExport modifiers) (isWord : keyword.isWord word)
    (isKeyword : ∀ other ∈ ["export", "declare", "default"], word.toList ≠ other.toList)
    (rest : List Token) :
    stripModifiers afterExport (modifiers ++ keyword :: rest) =
      (exportsDefault modifiers, keyword :: rest) := by
  induction modifiers generalizing afterExport with
  | nil =>
      have noModifier : keyword.isOneOf ["export", "declare"] = false :=
        Token.isOneOf_eq_false isWord fun other member =>
          isKeyword other (List.mem_append_left ["default"] member)
      have noDefault := Token.isWord_eq_false isWord (isKeyword "default" (by simp))
      cases rest with
      | nil => rfl
      | cons next rest => simp [stripModifiers, noModifier, noDefault, exportsDefault]
  | cons first modifiers ih =>
      obtain ⟨isModifier, areModifiers⟩ := areModifiers_cons.mp areModifiers
      -- What follows is another modifier or the keyword, an identifier in either case.
      obtain ⟨next, others, goesOn, isIdentifier⟩ : ∃ next others,
          modifiers ++ keyword :: rest = next :: others ∧ next.isIdentifier := by
        cases modifiers with
        | nil => exact ⟨keyword, rest, rfl, Token.isIdentifier_of_isWord isWord⟩
        | cons next others =>
            exact ⟨next, _, rfl, (areModifiers_cons.mp areModifiers).1.isIdentifier⟩
      have later := ih areModifiers
      rw [goesOn] at later
      rw [List.cons_append, goesOn, stripModifiers, isModifier_iff.mp isModifier, isIdentifier,
        Bool.and_self, if_pos rfl, later, isModifier.and_isWord_default]
      rfl

/-! ## Statements -/

variable (source : Text) (tokens following : List Token)

/-- The tokens that may follow the name of an interface. -/
theorem followsInterfaceName_iff : followsInterfaceName token = true ↔
    token.kind = .opening .angle ∨ token.kind = .opening .brace ∨ token.isWord "extends" := by
  simp [followsInterfaceName, or_assoc]

theorem followsAliasName_iff : followsAliasName token = true ↔
    token.kind = .opening .angle ∨ token.kind = .equals := by
  simp [followsAliasName]

/-- The name and the token after it. -/
theorem exists_name_of_any {follows : Token → Bool}
    (named : (rest.head?.any (·.isWord propsName) && rest.tail.head?.any follows) = true) :
    ∃ name next others, rest = name :: next :: others ∧ name.isWord "Props" ∧ follows next := by
  obtain ⟨isProps, isNext⟩ := Bool.and_eq_true_iff.mp named
  match rest with
  | [] => cases isProps
  | [name] => cases isNext
  | name :: next :: others => exact ⟨name, next, others, rfl, isProps, isNext⟩

/-- What a statement can declare, and how it then begins. -/
theorem begins_of_classify {props : PropsDeclaration}
    (declares : classify source tokens following = some props) :
    (∃ clause, props = .interface clause) ∧ BeginsInterface tokens ∨
      (∃ clause, props = .typeAlias clause) ∧ BeginsTypeAlias tokens ∨
      (∃ binding, props = .imported binding) ∧ BeginsImport tokens := by
  obtain ⟨modifiers, whole, areModifiers, sameDefault⟩ := exists_modifiers false tokens
  unfold classify at declares
  generalize stripModifiers false tokens = modified at declares whole sameDefault
  obtain ⟨isDefault, stripped⟩ := modified
  cases stripped with
  | nil => cases declares
  | cons keyword rest =>
      simp only at declares whole sameDefault
      split at declares
      · rename_i isInterface
        split at declares
        · rename_i named
          obtain ⟨name, next, others, rfl, isProps, follows⟩ := exists_name_of_any named
          exact .inl ⟨⟨_, (Option.some.inj declares).symm⟩, modifiers, keyword, name, next, others,
            whole, areModifiers, isInterface, isProps, followsInterfaceName_iff.mp follows⟩
        · cases declares
      · split at declares
        · rename_i isAlias
          obtain ⟨isType, noDefault⟩ := Bool.and_eq_true_iff.mp isAlias
          rw [Bool.not_eq_true', sameDefault] at noDefault
          split at declares
          · rename_i named
            obtain ⟨name, next, others, rfl, isProps, follows⟩ := exists_name_of_any named
            exact .inr (.inl ⟨⟨_, (Option.some.inj declares).symm⟩, modifiers, keyword, name, next,
              others, whole, areModifiers, noDefault, isType, isProps,
              followsAliasName_iff.mp follows⟩)
          · cases declares
        · split at declares
          · rename_i isImport
            obtain ⟨isImport, noDefault⟩ := Bool.and_eq_true_iff.mp isImport
            rw [Bool.not_eq_true', sameDefault] at noDefault
            obtain ⟨binding, _, isBinding⟩ := Option.map_eq_some_iff.mp declares
            exact .inr (.inr ⟨⟨binding, isBinding.symm⟩, modifiers, keyword, rest, whole,
              areModifiers, noDefault, isImport⟩)
          · cases declares

/-- What begins as an interface `Props` is one, with the clause after the name. -/
theorem classify_interface {keyword name next : Token} (areModifiers : AreModifiers false modifiers)
    (isInterface : keyword.isWord "interface") (isProps : name.isWord "Props")
    (follows : followsInterfaceName next) :
    classify source (modifiers ++ keyword :: name :: next :: rest) following =
      some (.interface (GenericClause.extract? source (next :: rest ++ following))) := by
  have stripped := stripModifiers_append areModifiers isInterface (by decide) (name :: next :: rest)
  have named : (name.isWord propsName && followsInterfaceName next) = true :=
    Bool.and_eq_true_iff.mpr ⟨isProps, follows⟩
  simp only [classify, stripped, isInterface, if_true, List.head?_cons, List.tail_cons,
    Option.any_some, named]

/-- What begins as a type alias `Props` is one, with the clause after the name. -/
theorem classify_typeAlias {keyword name next : Token} (areModifiers : AreModifiers false modifiers)
    (noDefault : exportsDefault modifiers = false) (isType : keyword.isWord "type")
    (isProps : name.isWord "Props") (follows : followsAliasName next) :
    classify source (modifiers ++ keyword :: name :: next :: rest) following =
      some (.typeAlias (GenericClause.extract? source (next :: rest ++ following))) := by
  have stripped := stripModifiers_append areModifiers isType (by decide) (name :: next :: rest)
  have noInterface : keyword.isWord "interface" = false :=
    Token.isWord_eq_false isType (by decide)
  have named : (name.isWord propsName && followsAliasName next) = true :=
    Bool.and_eq_true_iff.mpr ⟨isProps, follows⟩
  simp only [classify, stripped, noInterface, isType, noDefault, Bool.not_false, Bool.and_self,
    Bool.false_eq_true, if_false, if_true, List.head?_cons, List.tail_cons, Option.any_some, named]

theorem exists_classify_of_beginsInterface (begins : BeginsInterface tokens) :
    ∃ clause, classify source tokens following = some (.interface clause) := by
  obtain ⟨modifiers, keyword, name, next, rest, rfl, areModifiers, isInterface, isProps, follows⟩ :=
    begins
  exact ⟨_, classify_interface source following areModifiers isInterface isProps
    (followsInterfaceName_iff.mpr follows)⟩

theorem exists_classify_of_beginsTypeAlias (begins : BeginsTypeAlias tokens) :
    ∃ clause, classify source tokens following = some (.typeAlias clause) := by
  obtain ⟨modifiers, keyword, name, next, rest, rfl, areModifiers, noDefault, isType, isProps,
    follows⟩ := begins
  exact ⟨_, classify_typeAlias source following areModifiers noDefault isType isProps
    (followsAliasName_iff.mpr follows)⟩

theorem classify_interface_iff :
    (∃ clause, classify source tokens following = some (.interface clause)) ↔
      BeginsInterface tokens := by
  refine ⟨?_, exists_classify_of_beginsInterface source tokens following⟩
  rintro ⟨clause, declares⟩
  rcases begins_of_classify source tokens following declares with
    ⟨_, begins⟩ | ⟨⟨_, other⟩, _⟩ | ⟨⟨_, other⟩, _⟩
  · exact begins
  · cases other
  · cases other

theorem classify_typeAlias_iff :
    (∃ clause, classify source tokens following = some (.typeAlias clause)) ↔
      BeginsTypeAlias tokens := by
  refine ⟨?_, exists_classify_of_beginsTypeAlias source tokens following⟩
  rintro ⟨clause, declares⟩
  rcases begins_of_classify source tokens following declares with
    ⟨⟨_, other⟩, _⟩ | ⟨_, begins⟩ | ⟨⟨_, other⟩, _⟩
  · cases other
  · exact begins
  · cases other

/-! ## Declarations -/

variable {preamble : Text} {declaration : Declaration}

instance (declaration : Declaration) (token : Token) : Decidable (declaration.Encloses token) :=
  inferInstanceAs (Decidable (_ ∧ _))

/-- The tokens of a declaration in its preamble, without comments and line breaks. -/
def tokensIn (preamble : Text) (declaration : Declaration) : List Token :=
  ((tokenize preamble).filter Token.isSignificant).filter (declaration.Encloses ·)

/-- The tokens of a declaration are those of its statement. -/
theorem tokensIn_eq {statement : Statement} (member : statement ∈ statements preamble)
    (declares : ofStatement? preamble statement = some declaration) :
    tokensIn preamble declaration = Statement.significant statement.tokens := by
  obtain ⟨⟨first, isFirst, start⟩, ⟨last, isLast, stop⟩, encloses⟩ :=
    exists_ends_of_ofStatement? member declares
  have nonempty {other : Statement} (isStatement : other ∈ statements preamble) {token : Token}
      (inside : token ∈ Statement.significant other.tokens) : token.start < token.stop := by
    have isToken := exists_mem_significant_iff.mp ⟨other, isStatement, inside⟩
    exact start_lt_stop_of_isSignificant isToken.1 isToken.2
  obtain ⟨front, back, split⟩ := List.append_of_mem member
  obtain ⟨_, fromHere, beforeHere⟩ := List.pairwise_append.mp (split ▸ pairwise_statements preamble)
  have afterHere := (List.pairwise_cons.mp fromHere).1
  have own : (Statement.significant statement.tokens).filter (declaration.Encloses ·) =
      Statement.significant statement.tokens :=
    List.filter_eq_self.mpr fun token inside => decide_eq_true (encloses token inside)
  have none (others : List Statement) (apart : ∀ other ∈ others, other ∈ statements preamble ∧
      ∀ token ∈ Statement.significant other.tokens,
        token.stop ≤ declaration.span.start ∨ declaration.span.stop ≤ token.start) :
      (others.flatMap (Statement.significant ·.tokens)).filter (declaration.Encloses ·) = [] := by
    refine List.filter_eq_nil_iff.mpr fun token inside => ?_
    obtain ⟨other, isOther, inside⟩ := List.mem_flatMap.mp inside
    obtain ⟨isStatement, outside⟩ := apart other isOther
    have := nonempty isStatement inside
    have := outside token inside
    rw [decide_eq_true_eq, Encloses]
    omega
  rw [tokensIn, ← flatMap_significant_statements, split, List.flatMap_append, List.flatMap_cons,
    List.filter_append, List.filter_append, own, none front, none back, List.append_nil,
    List.nil_append]
  · refine fun other isOther => ⟨by simp [split, isOther], fun token inside => .inr ?_⟩
    exact stop ▸ afterHere other isOther last isLast token inside
  · refine fun other isOther => ⟨by simp [split, isOther], fun token inside => .inl ?_⟩
    exact start ▸ beforeHere other isOther statement List.mem_cons_self token inside first isFirst

/--
**Local declarations are recognised by exactly their grammar.**  A declaration is of an interface
exactly when its tokens begin as an interface `Props`, and of a type alias exactly when they begin
as a type alias `Props`.  One that begins neither so nor as an import declares nothing, whatever
else stands in it.
-/
theorem props_eq_iff_of_mem_scan (member : declaration ∈ scan preamble) :
    ((∃ clause, declaration.props = some (.interface clause)) ↔
      BeginsInterface (tokensIn preamble declaration)) ∧
    ((∃ clause, declaration.props = some (.typeAlias clause)) ↔
      BeginsTypeAlias (tokensIn preamble declaration)) ∧
    (¬ BeginsInterface (tokensIn preamble declaration) →
      ¬ BeginsTypeAlias (tokensIn preamble declaration) →
      ¬ BeginsImport (tokensIn preamble declaration) → declaration.props = none) := by
  obtain ⟨statement, isStatement, declares⟩ := List.mem_filterMap.mp member
  obtain ⟨_, _, _, _, _, props⟩ := exists_span_of_ofStatement? isStatement declares
  rw [tokensIn_eq isStatement declares, props]
  refine ⟨classify_interface_iff .., classify_typeAlias_iff ..,
    fun noInterface noAlias noImport => ?_⟩
  cases declared : classify preamble (Statement.significant statement.tokens)
      statement.following with
  | none => rfl
  | some props =>
      rcases begins_of_classify _ _ _ declared with ⟨_, begins⟩ | ⟨_, begins⟩ | ⟨_, begins⟩
      · exact absurd begins noInterface
      · exact absurd begins noAlias
      · exact absurd begins noImport

/-- Behind `export default` an interface is declared, and a type alias is not. -/
theorem props_eq_iff_of_mem_scan_default :
    let preamble : Text :=
      ("declare export default interface Props<T> \x7b\x7d\n" ++
        "export default type Props = \x7b\x7d").toList
    let exported : Declaration :=
      ⟨some (.interface (some ⟨"<T>".toList, ["T".toList]⟩)), ⟨0, 44⟩⟩
    let lookalike : Declaration := ⟨none, ⟨45, 75⟩⟩
    (exported ∈ scan preamble ∧ lookalike ∈ scan preamble) ∧
      BeginsInterface (tokensIn preamble exported) ∧
      ¬ BeginsTypeAlias (tokensIn preamble lookalike) := by
  intro preamble exported lookalike
  have isExported : exported ∈ scan preamble := by decide +kernel
  have isLookalike : lookalike ∈ scan preamble := by decide +kernel
  refine ⟨⟨isExported, isLookalike⟩, ?_, ?_⟩
  · exact (props_eq_iff_of_mem_scan isExported).1.mp ⟨_, rfl⟩
  · intro begins
    obtain ⟨_, declares⟩ := (props_eq_iff_of_mem_scan isLookalike).2.1.mpr begins
    cases declares

end Declaration

end ComponentTsx
