import ComponentTsx.Declaration
import ComponentTsx.Proofs.GenericClause.Closing
import ComponentTsx.Proofs.Token.Tiling
import Mathlib.Data.List.Basic
import Mathlib.Tactic.Tauto

/-!
# How far a type parameter clause reaches

The clause of a declaration begins at the `<` after the name and is read to the
bracket that closes it, past the end of the statement if need be.  It lies in
the statement exactly when the statement's own tokens close it
(`clause_within_iff`).  A list that they leave open should be no clause, but
takes in what follows if a later statement happens to close it
(`clause_beyond_statement`).
-/

namespace ComponentTsx

set_option autoImplicit false

/-! ## A statement among the tokens -/

namespace Statement

/-- A statement and the tokens after it are the last of the tokens that are split. -/
theorem exists_append_of_mem_splitFrom {depth : Nat} {pending tokens : List Token}
    {statement : Statement} (member : statement ∈ splitFrom depth pending tokens) :
    ∃ prior, pending.reverse ++ tokens = prior ++ (statement.tokens ++ statement.following) := by
  induction tokens generalizing depth pending with
  | nil => cases member
  | cons token rest ih =>
      have later (found : statement ∈ splitFrom 0 [] rest) : ∃ prior,
          pending.reverse ++ token :: rest =
            prior ++ (statement.tokens ++ statement.following) := by
        obtain ⟨prior, whole⟩ := ih found
        refine ⟨pending.reverse ++ token :: prior, ?_⟩
        rw [List.append_assoc, List.cons_append, ← whole]
        rfl
      rw [splitFrom] at member
      split at member
      · cases List.mem_singleton.mp member
        exact ⟨[], rfl⟩
      · split at member
        · rcases List.mem_cons.mp member with rfl | found
          · exact ⟨[], rfl⟩
          · exact later found
        · split at member
          · rcases List.mem_cons.mp member with rfl | found
            · exact ⟨[], by simp⟩
            · exact later found
          · obtain ⟨prior, whole⟩ := ih member
            exact ⟨prior, by rw [← whole]; simp⟩

end Statement

namespace Declaration

/-- The tokens of a statement and those after it stand one after the other. -/
theorem pairwise_of_mem_statements {preamble : Text} {statement : Statement}
    (member : statement ∈ statements preamble) :
    (statement.tokens ++ statement.following).Pairwise
      fun first second => first.stop ≤ second.start := by
  obtain ⟨prior, whole⟩ := Statement.exists_append_of_mem_splitFrom member
  refine List.Pairwise.sublist ?_ (tiles_tokensFrom 0 true preamble).pairwise
  refine List.Sublist.trans ?_ (List.filter_sublist (p := (!·.kind.isTrivia)))
  rw [List.reverse_nil, List.nil_append] at whole
  exact whole ▸ List.sublist_append_right _ _

/-- The tokens of a statement and those after it are tokens of the preamble and no comments. -/
theorem mem_filter_tokenize_of_mem_statements {preamble : Text} {statement : Statement}
    (member : statement ∈ statements preamble) :
    ∀ token ∈ statement.tokens ++ statement.following,
      token ∈ (tokenize preamble).filter (!·.kind.isTrivia) := by
  obtain ⟨prior, whole⟩ := Statement.exists_append_of_mem_splitFrom member
  intro token inside
  rw [List.reverse_nil, List.nil_append] at whole
  exact whole ▸ List.mem_append_right _ inside

/-- The tokens of a statement and those after it all stand in the preamble. -/
theorem mem_tokenize_of_mem_statements {preamble : Text} {statement : Statement}
    (member : statement ∈ statements preamble) :
    ∀ token ∈ statement.tokens ++ statement.following, token ∈ tokenize preamble :=
  fun token inside =>
    (List.mem_filter.mp (mem_filter_tokenize_of_mem_statements member token inside)).1

/-! ## The tokens after the name -/

/-- The tokens of a statement after the name that it declares, line breaks aside. -/
def afterName (statement : Statement) : List Token :=
  (stripModifiers false (Statement.significant statement.tokens)).2.tail.tail

theorem afterName_suffix (statement : Statement) :
    afterName statement <:+ Statement.significant statement.tokens :=
  (List.tail_suffix _).trans ((List.tail_suffix _).trans (stripModifiers_suffix _ _))

/-- What may follow the name of a local declaration is neither a line break nor a comment. -/
theorem not_skipped_of_follows {token : Token}
    (follows : followsInterfaceName token ∨ followsAliasName token) :
    (Statement.isLineBreak token || token.kind.isTrivia) = false := by
  have kinds : token.kind = .opening .angle ∨ token.kind = .opening .brace ∨
      token.kind = .identifier ∨ token.kind = .equals := by
    simp only [followsInterfaceName, followsAliasName, Token.isWord, Bool.or_eq_true,
      Bool.and_eq_true, decide_eq_true_eq] at follows
    tauto
  unfold Statement.isLineBreak
  rcases kinds with kind | kind | kind | kind <;> rw [kind] <;> rfl

/-- A clause is read from the tokens after the name, which begin with what may follow it. -/
theorem extract?_of_clause? {source : Text} {statement : Statement} {props : PropsDeclaration}
    {clause : GenericClause}
    (declares : classify source (Statement.significant statement.tokens) statement.following =
      some props)
    (carries : props.clause? = some clause) :
    GenericClause.extract? source (afterName statement ++ statement.following) = some clause ∧
      ∃ head rest, afterName statement = head :: rest ∧
        (Statement.isLineBreak head || head.kind.isTrivia) = false := by
  unfold classify at declares
  unfold afterName
  generalize stripModifiers false (Statement.significant statement.tokens) = modified at declares ⊢
  obtain ⟨isDefault, stripped⟩ := modified
  have begins {follows : Token → Bool} {tokens : List Token}
      (named : tokens.head?.any follows = true) :
      ∃ head rest, tokens = head :: rest ∧ follows head = true := by
    cases tokens with
    | nil => cases named
    | cons head rest => exact ⟨head, rest, rfl, named⟩
  cases stripped with
  | nil => cases declares
  | cons keyword rest =>
      simp only [List.tail_cons, Bool.and_eq_true] at declares ⊢
      split at declares
      · split at declares
        · rename_i named
          obtain ⟨head, others, after, follows⟩ := begins named.2
          cases declares
          exact ⟨carries, head, others, after, not_skipped_of_follows (.inl follows)⟩
        · cases declares
      · split at declares
        · split at declares
          · rename_i named
            obtain ⟨head, others, after, follows⟩ := begins named.2
            cases declares
            exact ⟨carries, head, others, after, not_skipped_of_follows (.inr follows)⟩
          · cases declares
        · split at declares
          · obtain ⟨binding, _, rfl⟩ := Option.map_eq_some_iff.mp declares
            cases carries
          · cases declares

/-! ## The extent of a clause -/

/-- No token of ordered ones reaches past the last. -/
theorem stop_le_of_getLast? {tokens : List Token} {last : Token}
    (ordered : tokens.Pairwise fun first second => first.stop ≤ second.start)
    (isLast : tokens.getLast? = some last) : ∀ token ∈ tokens, token.stop ≤ last.stop := by
  obtain ⟨before, rfl⟩ := List.getLast?_eq_some_iff.mp isLast
  have earlier := (List.pairwise_append.mp ordered).2.2
  intro token member
  rcases List.mem_append.mp member with member | member
  · exact Nat.le_trans (earlier token member last (List.mem_singleton_self last))
      (Nat.le_add_right _ _)
  · exact Nat.le_of_eq (congrArg Token.stop (List.mem_singleton.mp member))

/-- No token of ordered ones begins before the first. -/
theorem le_start_of_head? {tokens : List Token} {first : Token}
    (ordered : tokens.Pairwise fun first second => first.stop ≤ second.start)
    (isFirst : tokens.head? = some first) : ∀ token ∈ tokens, first.start ≤ token.start := by
  cases tokens with
  | nil => cases isFirst
  | cons head rest =>
      cases isFirst
      refine List.forall_mem_cons.mpr ⟨Nat.le_refl _, fun later member => ?_⟩
      exact Nat.le_trans (Nat.le_add_right _ _) ((List.pairwise_cons.mp ordered).1 later member)

/-- The tokens of a statement without its line breaks stand one after the other. -/
theorem pairwise_significant {preamble : Text} {statement : Statement}
    (member : statement ∈ statements preamble) :
    (Statement.significant statement.tokens).Pairwise
      fun first second => first.stop ≤ second.start :=
  (List.pairwise_append.mp (pairwise_of_mem_statements member)).1.sublist List.filter_sublist

/-- A declaration reaches from the first token of its statement through the last. -/
theorem exists_span_of_ofStatement? {preamble : Text} {statement : Statement}
    {declaration : Declaration} (member : statement ∈ statements preamble)
    (declares : ofStatement? preamble statement = some declaration) :
    ∃ first last, (Statement.significant statement.tokens).head? = some first ∧
      (Statement.significant statement.tokens).getLast? = some last ∧
      declaration.span = ⟨first.start, last.stop⟩ ∧
      declaration.props =
        classify preamble (Statement.significant statement.tokens) statement.following := by
  obtain ⟨first, isFirst, declares⟩ := Option.bind_eq_some_iff.mp declares
  obtain ⟨last, isLast, declares⟩ := Option.bind_eq_some_iff.mp declares
  cases declares
  have ordered := pairwise_significant member
  have start := le_start_of_head? ordered isFirst last (List.mem_of_getLast? isLast)
  have stop := stop_le_of_getLast? ordered isLast first (List.mem_of_head? isFirst)
  refine ⟨first, last, isFirst, isLast, ?_, rfl⟩
  simp only [Span.cover, Token.span, Nat.min_eq_left start, Nat.max_eq_right stop]

/-- The first statement is the first declaration, unless it is empty. -/
theorem scan_eq_cons {preamble : Text} {statement : Statement} {others : List Statement}
    {first last : Token} (begins : statements preamble = statement :: others)
    (isFirst : (Statement.significant statement.tokens).head? = some first)
    (isLast : (Statement.significant statement.tokens).getLast? = some last) :
    scan preamble =
      ⟨classify preamble (Statement.significant statement.tokens) statement.following,
        ⟨first.start, last.stop⟩⟩ :: others.filterMap (ofStatement? preamble) := by
  have member : statement ∈ statements preamble := begins ▸ List.mem_cons_self
  obtain ⟨declaration, declares⟩ : ∃ declaration,
      ofStatement? preamble statement = some declaration := by
    rw [ofStatement?, isFirst, isLast]
    exact ⟨_, rfl⟩
  obtain ⟨_, _, sameFirst, sameLast, span, props⟩ := exists_span_of_ofStatement? member declares
  cases isFirst.symm.trans sameFirst
  cases isLast.symm.trans sameLast
  rw [scan, begins, List.filterMap_cons, declares, ← span, ← props]

/-- A token after a statement that is not the end of the file reaches past the statement. -/
theorem stop_lt_of_mem_following {preamble : Text} {statement : Statement} {last token : Token}
    (member : statement ∈ statements preamble) (inside : last ∈ statement.tokens)
    (after : token ∈ statement.following) (notEnd : token.kind ≠ .endOfFile) :
    last.stop < token.stop := by
  have ordered := (List.pairwise_append.mp (pairwise_of_mem_statements member)).2.2
  have inPreamble := mem_tokenize_of_mem_statements member token (List.mem_append_right _ after)
  have nonempty := (tiles_tokensFrom 0 true preamble).text_ne_nil token inPreamble notEnd
  have positive := Text.byteLength_pos_iff.mpr nonempty
  exact Nat.lt_of_le_of_lt (ordered last inside token after) (Nat.lt_add_of_pos_right positive)

/--
**A clause lies in its statement exactly when the statement's own tokens close it.**  It is the text
of the preamble that begins at the `<` after the name.
-/
theorem clause_within_iff {preamble : Text} {declaration : Declaration} {clause : GenericClause}
    (member : declaration ∈ scan preamble)
    (carries : declaration.props.bind PropsDeclaration.clause? = some clause) :
    ∃ statement ∈ statements preamble, ofStatement? preamble statement = some declaration ∧
      ∃ opening, (afterName statement).head? = some opening ∧ opening.kind = .opening .angle ∧
        declaration.span.start ≤ opening.start ∧
        preamble.slice? opening.start (opening.start + clause.raw.byteLength) = some clause.raw ∧
        (opening.start + clause.raw.byteLength ≤ declaration.span.stop ↔
          (GenericClause.tokens? (afterName statement)).isSome) := by
  obtain ⟨statement, isStatement, declares⟩ := List.mem_filterMap.mp member
  refine ⟨statement, isStatement, declares, ?_⟩
  obtain ⟨first, last, isFirst, isLast, span, props⟩ :=
    exists_span_of_ofStatement? isStatement declares
  obtain ⟨kind, isKind, carries⟩ := Option.bind_eq_some_iff.mp carries
  obtain ⟨reads, opening, rest, after, kept⟩ := extract?_of_clause? (props ▸ isKind) carries
  rw [after, List.cons_append] at reads
  obtain ⟨opens, taken, closing, closed, isClosing, cut⟩ :=
    GenericClause.exists_closing_of_extract? kept reads
  have reach := Text.add_byteLength_of_slice? cut
  have ordered := pairwise_significant isStatement
  have own : opening :: rest ⊆ Statement.significant statement.tokens :=
    after ▸ (afterName_suffix statement).subset
  rw [span, after]
  refine ⟨opening, List.head?_cons, opens, ?_, by rw [reach]; exact cut, ?_⟩
  · exact le_start_of_head? ordered isFirst opening (own List.mem_cons_self)
  rw [reach, GenericClause.tokens?_cons kept, if_pos opens, Option.isSome_map]
  have isTaken : closing ∈ taken := List.mem_of_getLast? isClosing
  rcases GenericClause.takeClosing_append_cases closed with
    closes | ⟨leavesOpen, later, nonempty, begins, rfl⟩
  · have inside : closing ∈ Statement.significant statement.tokens :=
      own (List.mem_cons_of_mem _ ((GenericClause.takeClosing_self closes).1.subset isTaken))
    rw [closes]
    exact iff_of_true (stop_le_of_getLast? ordered isLast closing inside) rfl
  · have inStatement : last ∈ statement.tokens :=
      (List.mem_filter.mp (List.mem_of_getLast? isLast)).1
    have isLater : closing ∈ later := by
      rw [List.getLast?_append_of_ne_nil _ nonempty] at isClosing
      exact List.mem_of_getLast? isClosing
    have beyond := stop_lt_of_mem_following isStatement inStatement (begins.subset isLater)
      (GenericClause.ne_endOfFile_of_takeClosing closed closing isTaken)
    rw [leavesOpen]
    exact iff_of_false (Nat.not_le_of_lt beyond) Bool.false_ne_true

/-- A clause in its statement, and the bracket that closes it among the statement's own tokens. -/
theorem clause_within_alias :
    let preamble : Text := "type Props<T> = T\nconst a = b > c".toList
    let declaration : Declaration :=
      ⟨some (.typeAlias (some ⟨"<T>".toList, ["T".toList]⟩)), ⟨0, 17⟩⟩
    declaration ∈ scan preamble ∧
      declaration.props.bind PropsDeclaration.clause? = some ⟨"<T>".toList, ["T".toList]⟩ ∧
      ∃ statement ∈ statements preamble, ofStatement? preamble statement = some declaration ∧
        ∃ opening, (afterName statement).head? = some opening ∧
          opening.kind = .opening .angle ∧ declaration.span.start ≤ opening.start ∧
          preamble.slice? opening.start (opening.start + Text.byteLength "<T>".toList) =
            some "<T>".toList ∧
          (opening.start + Text.byteLength "<T>".toList ≤ declaration.span.stop ↔
            (GenericClause.tokens? (afterName statement)).isSome) := by
  intro preamble declaration
  have member : declaration ∈ scan preamble := by decide +kernel
  exact ⟨member, rfl, clause_within_iff member rfl⟩

/-- A list left open in its statement is closed by a comparison in the next one. -/
theorem clause_beyond_statement :
    ∃ declaration ∈ scan "interface Props<T \x7b\x7d\nconst a = b > c".toList,
      declaration.props.bind PropsDeclaration.clause? =
        some ⟨"<T \x7b\x7d\nconst a = b >".toList, ["a".toList]⟩ ∧
      declaration.span.slice "interface Props<T \x7b\x7d\nconst a = b > c".toList =
        "interface Props<T \x7b\x7d".toList ∧
      ¬ "<T \x7b\x7d\nconst a = b >".toList <:+: "interface Props<T \x7b\x7d".toList := by
  refine ⟨⟨some (.interface (some ⟨"<T \x7b\x7d\nconst a = b >".toList, ["a".toList]⟩)), ⟨0, 20⟩⟩,
    by decide +kernel, rfl, by decide +kernel, by decide +kernel⟩

end Declaration

end ComponentTsx
