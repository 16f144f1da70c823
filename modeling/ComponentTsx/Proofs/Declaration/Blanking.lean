import ComponentTsx.Proofs.Declaration.ClauseExtent
import ComponentTsx.Proofs.Token.Blanking

/-!
# Declarations of a text without its comments

Comments belong to no statement, so a text with blanks in place of a comment has
the statements of the text.  Each declares the same, except that the text of a
type parameter clause is cut from the source with the comments in it
(`map_withoutClauseText_scan`).  No declaration begins in a comment: one that is
commented out declares nothing (`scan_blanked`).
-/

namespace ComponentTsx

set_option autoImplicit false

/-! ## Slices between tokens -/

/-- There is a slice between two cuts of a text that are in order. -/
theorem Text.exists_slice? {text first second before after : Text}
    (firstCut : text = first ++ second) (secondCut : text = before ++ after)
    (inOrder : first.byteLength ≤ before.byteLength) :
    ∃ part, text.slice? first.byteLength before.byteLength = some part := by
  subst firstCut
  rcases List.append_eq_append_iff.mp secondCut with ⟨middle, rfl, rfl⟩ | ⟨middle, rfl, rfl⟩
  · rw [← List.append_assoc, byteLength_append]
    exact ⟨middle, slice?_append first middle after⟩
  · have none : middle = [] := by
      by_contra nonempty
      have positive := byteLength_pos_iff.mpr nonempty
      rw [byteLength_append] at inOrder
      omega
    subst none
    refine ⟨[], ?_⟩
    simpa using slice?_append before [] second

/-- Tokens that stand in a source one after the other, each with its text where it begins. -/
structure StandIn (source : Text) (tokens : List Token) : Prop where
  placed : ∀ token ∈ tokens, ∃ before after, source = before ++ token.text ++ after ∧
    token.start = Text.byteLength before
  ordered : tokens.Pairwise fun first second => first.stop ≤ second.start

namespace StandIn

variable {source : Text} {tokens : List Token}

theorem sublist {some : List Token} (stand : StandIn source tokens)
    (among : some.Sublist tokens) : StandIn source some :=
  ⟨fun token member => stand.placed token (among.subset member), stand.ordered.sublist among⟩

/-- The source has a slice from the beginning of the first of some tokens to the end of the last. -/
theorem exists_slice? (stand : StandIn source tokens) {first last : Token}
    (isFirst : tokens.head? = some first) (isLast : tokens.getLast? = some last) :
    ∃ part, source.slice? first.start last.stop = some part := by
  obtain ⟨before, after, firstCut, firstPlace⟩ := stand.placed first (List.mem_of_head? isFirst)
  obtain ⟨front, rest, lastCut, lastPlace⟩ := stand.placed last (List.mem_of_getLast? isLast)
  have reach := Declaration.stop_le_of_getLast? stand.ordered isLast first
    (List.mem_of_head? isFirst)
  rw [List.append_assoc] at firstCut
  simp only [Token.stop, firstPlace, lastPlace, ← Text.byteLength_append] at reach ⊢
  refine Text.exists_slice? firstCut lastCut (Nat.le_trans ?_ reach)
  rw [Text.byteLength_append]
  exact Nat.le_add_right _ _

end StandIn

theorem standIn_tokenize (source : Text) : StandIn source (tokenize source) := by
  have tiles : Tiles 0 source (tokenize source) := tiles_tokensFrom 0 true source
  refine ⟨fun token member => ?_, tiles.pairwise⟩
  obtain ⟨before, after, whole, place⟩ := tiles.exists_text_eq token member
  exact ⟨before, after, whole, place.trans (Nat.zero_add _)⟩

/-! ## Declarations but for the texts of clauses -/

/-- The clause without its text: the names of its parameters. -/
def GenericClause.withoutText (clause : GenericClause) : GenericClause := { clause with raw := [] }

/-- The declaration without the text of its clause. -/
def PropsDeclaration.withoutClauseText : PropsDeclaration → PropsDeclaration
  | interface clause => .interface (clause.map GenericClause.withoutText)
  | typeAlias clause => .typeAlias (clause.map GenericClause.withoutText)
  | imported binding => .imported binding

/-- The declaration without the text of its clause. -/
def Declaration.withoutClauseText (declaration : Declaration) : Declaration :=
  { declaration with props := declaration.props.map PropsDeclaration.withoutClauseText }

namespace GenericClause

/-- The tokens of a clause are some of those it is read from. -/
theorem sublist_of_tokens? {tokens clause : List Token} (found : tokens? tokens = some clause) :
    clause ≠ [] ∧ clause.Sublist tokens := by
  have begins := List.dropWhile_sublist (l := tokens)
    fun token => Statement.isLineBreak token || token.kind.isTrivia
  unfold tokens? at found
  split at found
  · cases found
  · rename_i first rest remain
    split at found
    · obtain ⟨taken, closed, rfl⟩ := Option.map_eq_some_iff.mp found
      refine ⟨List.cons_ne_nil _ _, List.Sublist.trans ?_ (remain ▸ begins)⟩
      exact (takeClosing_self closed).1.sublist.cons_cons first
    · cases found

/-- Tokens that stand in a source have a clause if their brackets make one. -/
theorem extract?_withoutText {source : Text} {tokens : List Token} (stand : StandIn source tokens) :
    (extract? source tokens).map withoutText =
      (tokens? tokens).map fun clause => ⟨[], paramNames 0 none false clause.tail.dropLast⟩ := by
  rw [extract?]
  cases found : tokens? tokens with
  | none => rfl
  | some clause =>
      obtain ⟨nonempty, sublist⟩ := sublist_of_tokens? found
      have isFirst := List.head?_eq_some_head nonempty
      have isLast := List.getLast?_eq_some_getLast nonempty
      obtain ⟨part, cut⟩ := (stand.sublist sublist).exists_slice? isFirst isLast
      simp [isFirst, isLast, cut, withoutText]

end GenericClause

namespace Declaration

/-- But for the text of its clause, a declaration depends on its tokens alone. -/
theorem classify_withoutClauseText {first second : Text} {statement following : List Token}
    (inFirst : StandIn first (statement ++ following))
    (inSecond : StandIn second (statement ++ following)) :
    (classify first statement following).map PropsDeclaration.withoutClauseText =
      (classify second statement following).map PropsDeclaration.withoutClauseText := by
  have suffix := stripModifiers_suffix false statement
  unfold classify
  generalize stripModifiers false statement = modified at suffix ⊢
  obtain ⟨isDefault, stripped⟩ := modified
  cases stripped with
  | nil => rfl
  | cons keyword rest =>
      have afterName : rest.tail <:+ statement :=
        (List.tail_suffix rest).trans ((List.suffix_cons keyword rest).trans suffix)
      have own := afterName.sublist.append_right following
      have same : (GenericClause.extract? first (rest.tail ++ following)).map
            GenericClause.withoutText =
          (GenericClause.extract? second (rest.tail ++ following)).map
            GenericClause.withoutText := by
        rw [GenericClause.extract?_withoutText (inFirst.sublist own),
          GenericClause.extract?_withoutText (inSecond.sublist own)]
      simp only
      split
      · split
        · simp only [Option.map_some, PropsDeclaration.withoutClauseText, same]
        · rfl
      · split
        · split
          · simp only [Option.map_some, PropsDeclaration.withoutClauseText, same]
          · rfl
        · rfl

theorem ofStatement?_withoutClauseText {first second : Text} {statement : Statement}
    (inFirst : StandIn first (statement.tokens ++ statement.following))
    (inSecond : StandIn second (statement.tokens ++ statement.following)) :
    (ofStatement? first statement).map withoutClauseText =
      (ofStatement? second statement).map withoutClauseText := by
  have significant : (Statement.significant statement.tokens ++ statement.following).Sublist
      (statement.tokens ++ statement.following) :=
    List.Sublist.append_right List.filter_sublist _
  have same := classify_withoutClauseText (inFirst.sublist significant)
    (inSecond.sublist significant)
  simp only [ofStatement?, Option.bind_eq_bind]
  cases (Statement.significant statement.tokens).head? with
  | none => rfl
  | some head =>
      cases (Statement.significant statement.tokens).getLast? with
      | none => rfl
      | some last =>
          simp only [Option.bind_some, Option.pure_def, Option.map_some, withoutClauseText, same]

/-- The tokens of a statement and those after it stand in the preamble. -/
theorem standIn_of_mem_statements {preamble : Text} {statement : Statement}
    (member : statement ∈ statements preamble) :
    StandIn preamble (statement.tokens ++ statement.following) :=
  ⟨fun token inside => (standIn_tokenize preamble).placed token
    (mem_tokenize_of_mem_statements member token inside), pairwise_of_mem_statements member⟩

/-- Texts with the same tokens but for comments have the same declarations but for clause texts. -/
theorem map_withoutClauseText_scan {first second : Text}
    (same : statements first = statements second) :
    (scan first).map withoutClauseText = (scan second).map withoutClauseText := by
  rw [scan, scan, List.map_filterMap, List.map_filterMap, same]
  refine List.filterMap_congr fun statement member => ?_
  exact ofStatement?_withoutClauseText (standIn_of_mem_statements (same ▸ member))
    (standIn_of_mem_statements member)

/-- No declaration begins in a comment. -/
theorem not_contains_start_of_mem_scan {source : Text} {comment : Token}
    (member : comment ∈ tokenize source) (isComment : comment.kind.isTrivia) :
    ∀ declaration ∈ scan source, ¬ comment.span.contains declaration.span.start := by
  intro declaration isDeclaration
  obtain ⟨statement, isStatement, declares⟩ := List.mem_filterMap.mp isDeclaration
  obtain ⟨first, last, isFirst, isLast, span, _⟩ := exists_span_of_ofStatement? isStatement declares
  have inStatement : first ∈ statement.tokens ++ statement.following :=
    List.mem_append_left _ (List.mem_filter.mp (List.mem_of_head? isFirst)).1
  obtain ⟨inSource, noComment⟩ :=
    List.mem_filter.mp (mem_filter_tokenize_of_mem_statements isStatement first inStatement)
  rw [span]
  intro inside
  have tiles : Tiles 0 source (tokenize source) := tiles_tokensFrom 0 true source
  rw [tiles.eq_of_contains_start member inSource inside, isComment] at noComment
  cases noComment

/--
**Comments carry no syntax.**  With blanks in place of a comment on one line, which follows no
backslash, a text has the same tokens without the comment.  So it has the same declarations, the
texts of clauses aside, none of which begins in the comment.
-/
theorem scan_blanked {before after : Text} {comment : Token}
    (member : comment ∈ tokenize (before ++ comment.text ++ after))
    (place : comment.start = before.byteLength) (isComment : comment.kind.isTrivia)
    (oneLine : '\n' ∉ comment.text ∧ '\r' ∉ comment.text)
    (noEscape : before.getLast? ≠ some '\\') :
    let source := before ++ comment.text ++ after
    let blanked := before ++ List.replicate comment.text.byteLength ' ' ++ after
    tokenize blanked = (tokenize source).erase comment ∧
      (scan blanked).map withoutClauseText = (scan source).map withoutClauseText ∧
      ∀ declaration ∈ scan source, ¬ comment.span.contains declaration.span.start := by
  intro source blanked
  obtain ⟨earlier, later, lexed, without⟩ :=
    tokenize_blanked member place isComment oneLine noEscape
  have tiles : Tiles 0 source (earlier ++ comment :: later) :=
    lexed ▸ tiles_tokensFrom 0 true source
  have notEarlier : comment ∉ earlier := by
    intro twice
    have nonempty := tiles.text_ne_nil comment (by simp) (ne_endOfFile_of_isTrivia isComment)
    have ordered := (List.pairwise_append.mp tiles.pairwise).2.2 comment twice comment (by simp)
    have positive := Text.byteLength_pos_iff.mpr nonempty
    rw [Token.stop] at ordered
    omega
  have same : statements blanked = statements source := by
    rw [statements, statements, without, lexed]
    simp [isComment]
  refine ⟨?_, map_withoutClauseText_scan same, not_contains_start_of_mem_scan member isComment⟩
  rw [without, lexed, List.erase_append_right _ notEarlier, List.erase_cons_head]

/-- A slash looks for the end of a regular expression through a comment and past it. -/
theorem scan_blanked_division :
    let before : Text := "a = / [".toList
    let comment : Token := ⟨.blockComment, 7, "/* interface Props \x7b\x7d */".toList⟩
    let after : Text := "]\nimport type \x7b Props \x7d from 'p'".toList
    let source := before ++ comment.text ++ after
    let blanked := before ++ List.replicate comment.text.byteLength ' ' ++ after
    (comment ∈ tokenize source ∧ comment.start = before.byteLength ∧ comment.kind.isTrivia ∧
      ('\n' ∉ comment.text ∧ '\r' ∉ comment.text) ∧ before.getLast? ≠ some '\\') ∧
    tokenize blanked = (tokenize source).erase comment ∧
      (scan blanked).map withoutClauseText = (scan source).map withoutClauseText ∧
      ∀ declaration ∈ scan source, ¬ comment.span.contains declaration.span.start := by
  intro before comment after source blanked
  have member : comment ∈ tokenize source := by decide +kernel
  have oneLine : '\n' ∉ comment.text ∧ '\r' ∉ comment.text := by decide
  have noEscape : before.getLast? ≠ some '\\' := by decide
  exact ⟨⟨member, rfl, rfl, oneLine, noEscape⟩, scan_blanked member rfl rfl oneLine noEscape⟩

end Declaration

end ComponentTsx
