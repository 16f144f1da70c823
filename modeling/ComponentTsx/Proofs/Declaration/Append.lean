import ComponentTsx.Proofs.Declaration.Relocation
import ComponentTsx.Proofs.Statement.Append
import ComponentTsx.Proofs.Token.Extension
import ComponentTsx.Proofs.Token.Tiling

/-!
# Declarations before and after the end of a statement

A text that ends with the semicolon of a finished statement and a line feed has
its declarations, whatever follows it, and what follows it has its own, in their
new places (`scan_append`).  Only the type parameter clauses of the first ones
may differ, as a clause that its own text leaves open is read on into what
follows.
-/

namespace ComponentTsx

set_option autoImplicit false

/-- The declaration without its type parameter clause. -/
def PropsDeclaration.withoutClause : PropsDeclaration → PropsDeclaration
  | interface _ => .interface none
  | typeAlias _ => .typeAlias none
  | imported binding => .imported binding

namespace Declaration

/-- The declaration without its type parameter clause. -/
def withoutClause (declaration : Declaration) : Declaration :=
  { declaration with props := declaration.props.map PropsDeclaration.withoutClause }

/-! ## What a declaration depends on -/

/-- But for its clause, a declaration depends on neither the source nor the tokens after it. -/
theorem classify_withoutClause (first second : Text) (tokens following later : List Token) :
    (classify first tokens following).map PropsDeclaration.withoutClause =
      (classify second tokens later).map PropsDeclaration.withoutClause := by
  unfold classify
  obtain ⟨isDefault, stripped⟩ := stripModifiers false tokens
  cases stripped with
  | nil => rfl
  | cons keyword rest =>
      simp only
      split
      · split <;> rfl
      · split
        · split <;> rfl
        · rfl

theorem ofStatement?_withoutClause (first second : Text) (statement : Statement)
    (rest : List Token) :
    (ofStatement? first (statement.followedBy rest)).map withoutClause =
      (ofStatement? second statement).map withoutClause := by
  have same := classify_withoutClause first second (Statement.significant statement.tokens)
    (statement.following ++ rest) statement.following
  simp only [ofStatement?, Statement.followedBy, Option.bind_eq_bind]
  cases (Statement.significant statement.tokens).head? with
  | none => rfl
  | some head =>
      cases (Statement.significant statement.tokens).getLast? with
      | none => rfl
      | some last =>
          simp only [Option.bind_some, Option.pure_def, Option.map_some, withoutClause, same]

/-- But for their clauses, the declarations of statements depend on nothing else either. -/
theorem map_withoutClause_filterMap (first second : Text) (statements : List Statement)
    (following later : List Token) :
    (statements.filterMap fun statement =>
        ofStatement? first (statement.followedBy following)).map withoutClause =
      (statements.filterMap fun statement =>
        ofStatement? second (statement.followedBy later)).map withoutClause := by
  simp only [List.map_filterMap, ofStatement?_withoutClause first first,
    ofStatement?_withoutClause second first]

theorem ofStatement?_withoutBreaks (source : Text) (statement : Statement) :
    ofStatement? source statement.withoutBreaks = ofStatement? source statement := by
  have once : Statement.significant (Statement.significant statement.tokens) =
      Statement.significant statement.tokens := by
    simp [Statement.significant]
  simp only [ofStatement?, Statement.withoutBreaks, once]

theorem filterMap_withoutBreaks (source : Text) (statements : List Statement) :
    (statements.map Statement.withoutBreaks).filterMap (ofStatement? source) =
      statements.filterMap (ofStatement? source) := by
  simp only [List.filterMap_map, Function.comp_def, ofStatement?_withoutBreaks]

/-- A line break before the first statement declares nothing and hides nothing. -/
theorem filterMap_splitFrom_cons {token : Token} (isBreak : Statement.isLineBreak token)
    (source : Text) (rest : List Token) :
    (Statement.splitFrom 0 [] (token :: rest)).filterMap (ofStatement? source) =
      (Statement.splitFrom 0 [] rest).filterMap (ofStatement? source) := by
  have kind := Statement.kind_of_isLineBreak isBreak
  have notEnd : token.kind ≠ .endOfFile := by
    rw [kind]
    exact TokenKind.noConfusion
  have noEnd : Statement.endsWith 0 token rest = false := by
    rw [Statement.endsWith, kind]
    rfl
  rw [Statement.splitFrom, if_neg notEnd, Statement.depthAfter_of_isLineBreak isBreak, noEnd,
    if_neg Bool.false_ne_true]
  split
  · rfl
  · have sameSignificant : Statement.significant [token] = Statement.significant [] :=
      Statement.significant_cons_of_isLineBreak isBreak []
    rw [← filterMap_withoutBreaks, Statement.map_withoutBreaks_splitFrom sameSignificant,
      filterMap_withoutBreaks]

/-! ## The declarations of a longer source -/

/-- The declarations of tokens that go on after a semicolon outside brackets and a line break. -/
theorem filterMap_split_append {semicolon newline : Token} (source : Text)
    (before rest : List Token) (isSemicolon : semicolon.kind = .semicolon)
    (isBreak : Statement.isLineBreak newline)
    (noEnd : ∀ token ∈ before, token.kind ≠ .endOfFile)
    (outside : Statement.depthThrough 0 before = 0) :
    (Statement.split (before ++ semicolon :: newline :: rest)).filterMap (ofStatement? source) =
      (Statement.split (before ++ [semicolon])).filterMap
          (fun statement => ofStatement? source (statement.followedBy (newline :: rest))) ++
        (Statement.split rest).filterMap (ofStatement? source) := by
  rw [Statement.split, Statement.splitFrom_append_semicolon isSemicolon 0 [] before _ noEnd outside,
    List.filterMap_append, filterMap_splitFrom_cons isBreak, List.filterMap_map]
  rfl

/-- The declarations of a text are found, in their new places, after another text. -/
theorem filterMap_split_map_shift (first second : Text) (tokens : List Token) :
    (Statement.split (tokens.map (Token.shift first.byteLength))).filterMap
        (ofStatement? (first ++ second)) =
      ((Statement.split tokens).filterMap (ofStatement? second)).map (shift first.byteLength) := by
  have relocates := Token.relocates_shift first.byteLength
  have moved := Statement.splitFrom_map relocates.toKeepsWords 0 [] tokens
  rw [List.map_nil] at moved
  rw [Statement.split, moved, List.filterMap_map, List.map_filterMap]
  simp only [Function.comp_def, ofStatement?_append]
  rfl

section Finished

variable {body : Text} {before : List Token}
  (lexed : tokenize (body ++ [';', '\n']) =
    before ++ Token.statementEnd body.byteLength ++ [⟨.endOfFile, body.byteLength + 2, []⟩])

include lexed

/-- The tokens of a text are found after a text that ends with a semicolon and a line feed. -/
theorem tokenize_append (second : Text) :
    tokenize (body ++ [';', '\n'] ++ second) =
      before ++ Token.statementEnd body.byteLength ++
        (tokenize second).map (Token.shift (body ++ [';', '\n']).byteLength) := by
  have shifted := tokensFrom_add 0 (body.byteLength + 2) true second
  have whole := tokensFrom_append 0 true body second before (by rw [Nat.zero_add]; exact lexed)
  rw [Nat.zero_add] at shifted whole
  rw [shifted] at whole
  rw [List.append_assoc, Text.byteLength_append]
  exact whole

/-- The end of the file is not among the tokens before the semicolon. -/
theorem ne_endOfFile_of_mem_filter :
    ∀ token ∈ before.filter (!·.kind.isTrivia), token.kind ≠ .endOfFile := by
  intro token member
  have tokens : tokensFrom 0 true (body ++ [';', '\n']) = _ := lexed
  refine (tiles_tokensFrom 0 true (body ++ [';', '\n'])).ne_endOfFile_of_mem_dropLast token ?_
  rw [tokens, List.dropLast_concat]
  exact List.mem_append_left _ (List.mem_filter.mp member).1

/-- The declarations up to the semicolon in any source, and those of the tokens that follow. -/
theorem filterMap_split_filter (outside : Statement.depthThrough 0 before = 0) (source : Text)
    (rest : List Token) :
    (Statement.split ((before ++ Token.statementEnd body.byteLength ++ rest).filter
        (!·.kind.isTrivia))).filterMap (ofStatement? source) =
      (Statement.split (before.filter (!·.kind.isTrivia) ++
          [⟨.semicolon, body.byteLength, [';']⟩])).filterMap
        (fun statement => ofStatement? source (statement.followedBy
          (⟨.newline, body.byteLength + 1, ['\n']⟩ :: rest.filter (!·.kind.isTrivia)))) ++
      (Statement.split (rest.filter (!·.kind.isTrivia))).filterMap (ofStatement? source) := by
  have outsideCode := (Statement.depthThrough_filter 0 before).trans outside
  rw [← filterMap_split_append source _ _ rfl rfl (ne_endOfFile_of_mem_filter lexed) outsideCode]
  simp [Token.statementEnd, TokenKind.isTrivia]

end Finished

/--
**Scanning is compositional at the end of a statement.**  If a text ends with the semicolon of a
statement and a line feed, each a token of its own, and the semicolon stands outside brackets, then
the declarations of the text and of what follows it are those of the two on their own: the first
ones but for their clauses, the others entirely, each at its place.
-/
theorem scan_append (body second : Text) (before : List Token)
    (lexed : tokenize (body ++ [';', '\n']) =
      before ++ Token.statementEnd body.byteLength ++ [⟨.endOfFile, body.byteLength + 2, []⟩])
    (outside : Statement.depthThrough 0 before = 0) :
    let first := body ++ [';', '\n']
    (scan (first ++ second)).length = (scan first).length + (scan second).length ∧
      ∃ firsts, scan (first ++ second) = firsts ++ (scan second).map (shift first.byteLength) ∧
        firsts.map withoutClause = (scan first).map withoutClause := by
  intro first
  have alone := filterMap_split_filter lexed outside first
    [⟨.endOfFile, body.byteLength + 2, []⟩]
  have nothing : (Statement.split ([(⟨.endOfFile, body.byteLength + 2, []⟩ : Token)].filter
      (!·.kind.isTrivia))).filterMap (ofStatement? first) = [] := rfl
  rw [← lexed, nothing, List.append_nil] at alone
  have together := filterMap_split_filter lexed outside (first ++ second)
    ((tokenize second).map (Token.shift first.byteLength))
  rw [← tokenize_append lexed] at together
  simp only [List.filter_map, Function.comp_def] at together
  have last := filterMap_split_map_shift first second
    ((tokenize second).filter (!·.kind.isTrivia))
  obtain ⟨firsts, whole, same⟩ : ∃ firsts,
      scan (first ++ second) = firsts ++ (scan second).map (shift first.byteLength) ∧
        firsts.map withoutClause = (scan first).map withoutClause := by
    refine ⟨_, together.trans (congrArg _ last), ?_⟩
    rw [scan, statements, alone]
    exact map_withoutClause_filterMap _ _ _ _ _
  refine ⟨?_, firsts, whole, same⟩
  have sameLength := congrArg List.length same
  rw [List.length_map, List.length_map] at sameLength
  rw [whole, List.length_append, List.length_map, sameLength]

/-- A list of type parameters that is never closed takes nothing from the next declarations. -/
theorem scan_append_unclosed :
    let body : Text := "interface Props<T \x7b\x7d".toList
    let second : Text := "import type \x7b Props \x7d from 'a'\nconst a = b > c".toList
    let before : List Token := [⟨.identifier, 0, "interface".toList⟩,
      ⟨.identifier, 10, "Props".toList⟩, ⟨.opening .angle, 15, "<".toList⟩,
      ⟨.identifier, 16, "T".toList⟩, ⟨.opening .brace, 18, "\x7b".toList⟩,
      ⟨.closing .brace, 19, "\x7d".toList⟩]
    tokenize (body ++ [';', '\n']) =
        before ++ Token.statementEnd body.byteLength ++ [⟨.endOfFile, body.byteLength + 2, []⟩] ∧
      Statement.depthThrough 0 before = 0 ∧
      (scan (body ++ [';', '\n'] ++ second)).length =
        (scan (body ++ [';', '\n'])).length + (scan second).length ∧
      ∃ firsts, scan (body ++ [';', '\n'] ++ second) =
          firsts ++ (scan second).map (shift (Text.byteLength (body ++ [';', '\n']))) ∧
        firsts.map withoutClause = (scan (body ++ [';', '\n'])).map withoutClause := by
  intro body second before
  have lexed : tokenize (body ++ [';', '\n']) = before ++ Token.statementEnd body.byteLength ++
      [⟨.endOfFile, body.byteLength + 2, []⟩] := by
    decide +kernel
  have outside : Statement.depthThrough 0 before = 0 := by decide
  exact ⟨lexed, outside, scan_append body second before lexed outside⟩

end Declaration

end ComponentTsx
