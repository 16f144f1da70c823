import ComponentTsx.Proofs.Declaration.ClauseExtent
import ComponentTsx.Proofs.Statement.Append
import Mathlib.Data.List.Chain
import Mathlib.Data.List.Pairwise

/-!
# Declarations partition the tokens of a preamble

Wherever the splitter cuts, it loses at most a line break.  So the statements
hold every token that is no comment, no line break and not the end of the file
once and in order (`flatMap_significant_splitFrom`), and each of them but the
last ends outside brackets (`depthThrough_eq_zero_of_splitFrom`).

A declaration reaches from the first such token of its statement through the
last.  Therefore declarations stand in order, every token of the kind lies in
exactly one of them, and between two of them no bracket is open
(`scan_partitions`).
-/

namespace ComponentTsx

set_option autoImplicit false

/-- Whether a token belongs to a statement: no comment, line break or end of the file does. -/
def Token.isSignificant (token : Token) : Bool :=
  !token.kind.isTrivia && !Statement.isLineBreak token && token.kind ≠ .endOfFile

/-! ## What the statements keep -/

namespace Statement

/-- The statements of tokens hold all but the line breaks, each token once and in order. -/
theorem flatMap_significant_splitFrom {eof : Token} (isEnd : eof.kind = .endOfFile) (depth : Nat)
    (pending : List Token) {tokens : List Token}
    (noEnd : ∀ token ∈ tokens, token.kind ≠ .endOfFile) :
    (splitFrom depth pending (tokens ++ [eof])).flatMap (significant ·.tokens) =
      significant (pending.reverse ++ tokens) := by
  induction tokens generalizing depth pending with
  | nil => simp [splitFrom, isEnd]
  | cons token rest ih =>
      obtain ⟨notEnd, noEnd⟩ := List.forall_mem_cons.mp noEnd
      rw [List.cons_append, splitFrom, if_neg notEnd]
      split
      · -- The line break itself is lost.
        rename_i breaks
        simp only [Bool.and_eq_true] at breaks
        rw [List.flatMap_cons, ih _ _ noEnd, significant_append pending.reverse,
          significant_cons_of_isLineBreak breaks.1.1]
        rfl
      · split
        · rw [List.flatMap_cons, ih _ _ noEnd, ← significant_append]
          simp
        · rw [ih _ _ noEnd]
          simp

/-- The statements before the last end outside brackets. -/
theorem depthThrough_eq_zero_of_splitFrom {depth : Nat} {pending tokens : List Token}
    {earlier later : List Statement} {statement : Statement}
    (level : depthThrough 0 pending.reverse = depth)
    (cut : splitFrom depth pending tokens = earlier ++ statement :: later) (notLast : later ≠ []) :
    ∃ prior, pending.reverse ++ tokens = prior ++ (statement.tokens ++ statement.following) ∧
      depthThrough 0 (prior ++ statement.tokens) = 0 := by
  induction tokens generalizing depth pending earlier with
  | nil =>
      rw [splitFrom] at cut
      simp at cut
  | cons token rest ih =>
      have through : depthThrough 0 (pending.reverse ++ [token]) = depthAfter depth token := by
        rw [depthThrough_append, level]
        rfl
      -- After a cut the depth begins anew, as it was zero there.
      have afterCut {front : List Statement} (outside : depthAfter depth token = 0)
          (cut : splitFrom 0 [] rest = front ++ statement :: later) :
          ∃ prior, pending.reverse ++ token :: rest =
              prior ++ (statement.tokens ++ statement.following) ∧
            depthThrough 0 (prior ++ statement.tokens) = 0 := by
        have anew : depthThrough 0 (List.reverse []) = 0 := rfl
        obtain ⟨prior, whole, zero⟩ := ih anew cut
        refine ⟨pending.reverse ++ token :: prior, ?_, ?_⟩
        · rw [List.append_assoc, List.cons_append, ← whole]
          rfl
        · rw [List.append_cons, List.append_assoc, depthThrough_append, through, outside]
          exact zero
      rw [splitFrom] at cut
      split at cut
      · have last : later = [] := by
          rcases List.singleton_eq_append_iff.mp cut with ⟨_, last⟩ | ⟨_, none⟩
          · exact (List.cons.inj last).2
          · cases none
        exact absurd last notLast
      · split at cut
        · rename_i breaks
          cases earlier with
          | nil =>
              obtain ⟨rfl, _⟩ := List.cons.inj cut
              simp only [Bool.and_eq_true, decide_eq_true_eq] at breaks
              exact ⟨[], rfl, level.trans breaks.1.2⟩
          | cons first earlier => exact afterCut (depthAfter_of_breaks breaks) (List.cons.inj cut).2
        · split at cut
          · rename_i ends
            cases earlier with
            | nil =>
                obtain ⟨rfl, _⟩ := List.cons.inj cut
                refine ⟨[], by simp, ?_⟩
                rw [List.nil_append, List.reverse_cons, through, eq_zero_of_endsWith ends]
            | cons first earlier =>
                exact afterCut (eq_zero_of_endsWith ends) (List.cons.inj cut).2
          · obtain ⟨prior, whole, zero⟩ := ih (by rw [List.reverse_cons, through]) cut
            exact ⟨prior, by rw [← whole]; simp, zero⟩

/-- Comments, line breaks and the end of the file leave the depth as it is. -/
theorem depthAfter_of_not_isSignificant {token : Token}
    (insignificant : token.isSignificant = false) (depth : Nat) :
    depthAfter depth token = depth := by
  unfold Token.isSignificant isLineBreak at insignificant
  unfold depthAfter
  cases kind : token.kind <;> simp_all [TokenKind.isTrivia]

end Statement

namespace Declaration

variable {preamble : Text}

/-- The tokens of a preamble without its comments end with the end of the file, and only there. -/
theorem exists_filter_tokenize_eq (preamble : Text) :
    ∃ tokens eof, (tokenize preamble).filter (!·.kind.isTrivia) = tokens ++ [eof] ∧
      eof.kind = .endOfFile ∧ ∀ token ∈ tokens, token.kind ≠ .endOfFile := by
  have tiles : Tiles 0 preamble (tokenize preamble) := tiles_tokensFrom 0 true preamble
  obtain ⟨before, whole⟩ := List.getLast?_eq_some_iff.mp tiles.getLast?_eq
  refine ⟨before.filter (!·.kind.isTrivia), _, by rw [whole, List.filter_append]; rfl, rfl, ?_⟩
  intro token member
  refine tiles.ne_endOfFile_of_mem_dropLast token ?_
  rw [whole, List.dropLast_concat]
  exact (List.mem_filter.mp member).1

/-- **The statements of a preamble hold its significant tokens**, each once and in order. -/
theorem flatMap_significant_statements (preamble : Text) :
    (statements preamble).flatMap (Statement.significant ·.tokens) =
      (tokenize preamble).filter Token.isSignificant := by
  obtain ⟨tokens, eof, whole, isEnd, noEnd⟩ := exists_filter_tokenize_eq preamble
  have split : (tokenize preamble).filter Token.isSignificant =
      (tokens ++ [eof]).filter fun token =>
        !Statement.isLineBreak token && token.kind ≠ .endOfFile := by
    rw [← whole, List.filter_filter]
    refine List.filter_congr fun token _ => ?_
    rw [Token.isSignificant, Bool.and_comm _ (!token.kind.isTrivia), Bool.and_assoc]
  rw [statements, Statement.split, whole,
    Statement.flatMap_significant_splitFrom isEnd 0 [] noEnd, split, List.filter_append]
  have endless : tokens.filter (fun token =>
      !Statement.isLineBreak token && token.kind ≠ .endOfFile) = Statement.significant tokens :=
    List.filter_congr fun token member => by simp [noEnd token member]
  rw [endless]
  simp [isEnd]

/-- A token without line breaks and comments is a token of a statement, and no other token is. -/
theorem exists_mem_significant_iff {token : Token} :
    (∃ statement ∈ statements preamble, token ∈ Statement.significant statement.tokens) ↔
      token ∈ tokenize preamble ∧ token.isSignificant := by
  rw [← List.mem_filter, ← flatMap_significant_statements, List.mem_flatMap]

theorem start_lt_stop_of_isSignificant {token : Token} (member : token ∈ tokenize preamble)
    (significant : token.isSignificant) : token.start < token.stop := by
  simp only [Token.isSignificant, Bool.and_eq_true, decide_eq_true_eq] at significant
  have tiles : Tiles 0 preamble (tokenize preamble) := tiles_tokensFrom 0 true preamble
  have nonempty := tiles.text_ne_nil token member significant.2
  exact Nat.lt_add_of_pos_right (Text.byteLength_pos_iff.mpr nonempty)

/-- Every token of a statement ends before the tokens of the statements after it. -/
theorem pairwise_statements (preamble : Text) :
    (statements preamble).Pairwise fun first second =>
      ∀ token ∈ Statement.significant first.tokens,
        ∀ other ∈ Statement.significant second.tokens, token.stop ≤ other.start := by
  have tiles : Tiles 0 preamble (tokenize preamble) := tiles_tokensFrom 0 true preamble
  have ordered := tiles.pairwise.sublist (List.filter_sublist (p := Token.isSignificant))
  rw [← flatMap_significant_statements, List.pairwise_flatMap] at ordered
  exact ordered.2

/-! ## Declarations -/

/-- Whether a token lies inside a declaration. -/
def Encloses (declaration : Declaration) (token : Token) : Prop :=
  declaration.span.start ≤ token.start ∧ token.stop ≤ declaration.span.stop

/-- The number of open braces, parentheses and square brackets at an offset of a preamble. -/
def depthAt (preamble : Text) (offset : Nat) : Nat :=
  Statement.depthThrough 0 ((tokenize preamble).filter (·.stop ≤ offset))

/-- Declarations that share out the tokens of a preamble. -/
structure Partitions (preamble : Text) (declarations : List Declaration) : Prop where
  nonempty : ∀ declaration ∈ declarations, declaration.span.start < declaration.span.stop
  /-- Each declaration ends before the next ones begin. -/
  ordered : declarations.Pairwise fun first second => first.span.stop ≤ second.span.start
  /-- A declaration begins where a token begins and ends where a token ends. -/
  placed : ∀ declaration ∈ declarations,
    (∃ first ∈ tokenize preamble, first.isSignificant ∧ first.start = declaration.span.start) ∧
      ∃ last ∈ tokenize preamble, last.isSignificant ∧ last.stop = declaration.span.stop
  covered : ∀ token ∈ tokenize preamble, token.isSignificant →
    ∃! declaration, declaration ∈ declarations ∧ declaration.Encloses token
  /-- From the end of a declaration to the beginning of the next one no bracket is open. -/
  outside : declarations.IsChain fun first second => ∀ offset,
    first.span.stop ≤ offset → offset ≤ second.span.start → depthAt preamble offset = 0

/-- A declaration encloses the tokens of its statement, and it begins and ends with two of them. -/
theorem exists_ends_of_ofStatement? {statement : Statement} {declaration : Declaration}
    (member : statement ∈ statements preamble)
    (declares : ofStatement? preamble statement = some declaration) :
    (∃ first ∈ Statement.significant statement.tokens, first.start = declaration.span.start) ∧
      (∃ last ∈ Statement.significant statement.tokens, last.stop = declaration.span.stop) ∧
      ∀ token ∈ Statement.significant statement.tokens, declaration.Encloses token := by
  obtain ⟨first, last, isFirst, isLast, span, _⟩ := exists_span_of_ofStatement? member declares
  have ordered := pairwise_significant member
  simp only [Encloses, span]
  exact ⟨⟨first, List.mem_of_head? isFirst, rfl⟩, ⟨last, List.mem_of_getLast? isLast, rfl⟩,
    fun token inside => ⟨le_start_of_head? ordered isFirst token inside,
      stop_le_of_getLast? ordered isLast token inside⟩⟩

theorem pairwise_scan (preamble : Text) :
    (scan preamble).Pairwise fun first second => first.span.stop ≤ second.span.start := by
  rw [scan, List.pairwise_filterMap]
  refine (pairwise_statements preamble).imp_of_mem fun isFirst isSecond apart => ?_
  intro first declares second alsoDeclares
  obtain ⟨_, ⟨last, inFirst, stop⟩, _⟩ := exists_ends_of_ofStatement? isFirst declares
  obtain ⟨⟨head, inSecond, start⟩, _⟩ := exists_ends_of_ofStatement? isSecond alsoDeclares
  rw [← stop, ← start]
  exact apart last inFirst head inSecond

/-- A token of a statement lies in the declaration that the statement makes. -/
theorem exists_encloses {token : Token} (member : token ∈ tokenize preamble)
    (significant : token.isSignificant) :
    ∃ declaration ∈ scan preamble, declaration.Encloses token := by
  obtain ⟨statement, isStatement, inside⟩ :=
    exists_mem_significant_iff.mpr ⟨member, significant⟩
  have nonempty : Statement.significant statement.tokens ≠ [] := List.ne_nil_of_mem inside
  obtain ⟨declaration, declares⟩ :
      ∃ declaration, ofStatement? preamble statement = some declaration := by
    rw [ofStatement?, List.head?_eq_some_head nonempty, List.getLast?_eq_some_getLast nonempty]
    exact ⟨_, rfl⟩
  exact ⟨declaration, List.mem_filterMap.mpr ⟨statement, isStatement, declares⟩,
    (exists_ends_of_ofStatement? isStatement declares).2.2 token inside⟩

/-- Two declarations do not share a token. -/
theorem eq_of_encloses {token : Token} (nonempty : token.start < token.stop)
    {first second : Declaration} (isFirst : first ∈ scan preamble)
    (isSecond : second ∈ scan preamble) (inFirst : first.Encloses token)
    (inSecond : second.Encloses token) : first = second := by
  let Share (first second : Declaration) : Prop :=
    first.Encloses token → second.Encloses token → first = second
  have symm : Std.Symm Share := ⟨fun _ _ share inSecond inFirst => (share inFirst inSecond).symm⟩
  have apart : (scan preamble).Pairwise Share := by
    refine (pairwise_scan preamble).imp fun {first second} apart inFirst inSecond => ?_
    have := inFirst.2
    have := inSecond.1
    omega
  exact apart.forall_of_forall (fun _ _ _ _ => rfl) isFirst isSecond inFirst inSecond

theorem start_lt_stop_of_mem_scan {declaration : Declaration}
    (member : declaration ∈ scan preamble) :
    declaration.span.start < declaration.span.stop := by
  obtain ⟨statement, isStatement, declares⟩ := List.mem_filterMap.mp member
  obtain ⟨⟨first, inside, start⟩, _, encloses⟩ := exists_ends_of_ofStatement? isStatement declares
  obtain ⟨inPreamble, significant⟩ :=
    exists_mem_significant_iff.mp ⟨statement, isStatement, inside⟩
  have nonempty := start_lt_stop_of_isSignificant inPreamble significant
  exact start ▸ Nat.lt_of_lt_of_le nonempty (encloses first inside).2

/-! ## Between declarations -/

section Consecutive

variable {earlier later : List Declaration} {first second : Declaration}
  (consecutive : scan preamble = earlier ++ first :: second :: later)

include consecutive

/-- No token of a statement stands between two consecutive declarations. -/
theorem not_isSignificant_between {token : Token} (member : token ∈ tokenize preamble)
    (starts : first.span.stop ≤ token.start) (stops : token.stop ≤ second.span.start) :
    token.isSignificant = false := by
  by_contra significant
  rw [Bool.not_eq_false] at significant
  have nonempty := start_lt_stop_of_isSignificant member significant
  obtain ⟨declaration, isDeclaration, inside⟩ := exists_encloses member significant
  have isFirst : first ∈ scan preamble := by simp [consecutive]
  have isSecond : second ∈ scan preamble := by simp [consecutive]
  have firstNonempty := start_lt_stop_of_mem_scan isFirst
  have secondNonempty := start_lt_stop_of_mem_scan isSecond
  have ordered := pairwise_scan preamble
  rw [consecutive] at ordered isDeclaration
  obtain ⟨_, fromFirst, before⟩ := List.pairwise_append.mp ordered
  obtain ⟨_, fromSecond⟩ := List.pairwise_cons.mp fromFirst
  have after := (List.pairwise_cons.mp fromSecond).1
  obtain ⟨start, stop⟩ := inside
  rcases List.mem_append.mp isDeclaration with isEarlier | isLater
  · have := before declaration isEarlier first List.mem_cons_self
    omega
  · rcases List.mem_cons.mp isLater with rfl | isLater
    · omega
    · rcases List.mem_cons.mp isLater with rfl | isLater
      · omega
      · have := after declaration isLater
        omega

/-- The statement of a declaration that another one follows ends outside brackets. -/
theorem exists_statement_of_consecutive :
    ∃ statement ∈ statements preamble, ofStatement? preamble statement = some first ∧
      ∃ prior, (tokenize preamble).filter (!·.kind.isTrivia) =
          prior ++ (statement.tokens ++ statement.following) ∧
        Statement.depthThrough 0 (prior ++ statement.tokens) = 0 := by
  obtain ⟨front, rest, split, _, declare⟩ := List.filterMap_eq_append_iff.mp consecutive
  obtain ⟨empty, statement, others, rfl, _, declares, declareOthers⟩ :=
    List.filterMap_eq_cons_iff.mp declare
  have notLast : others ≠ [] := by
    rintro rfl
    cases declareOthers
  rw [← List.append_assoc] at split
  have anew : Statement.depthThrough 0 (List.reverse []) = 0 := rfl
  obtain ⟨prior, whole, outside⟩ :=
    Statement.depthThrough_eq_zero_of_splitFrom anew split notLast
  refine ⟨statement, ?_, declares, prior, whole, outside⟩
  rw [split]
  exact List.mem_append_right _ List.mem_cons_self

/-- No bracket is open from the end of a declaration to the beginning of the next one. -/
theorem depthAt_eq_zero_between {offset : Nat} (start : first.span.stop ≤ offset)
    (stop : offset ≤ second.span.start) : depthAt preamble offset = 0 := by
  obtain ⟨statement, isStatement, declares, prior, whole, outside⟩ :=
    exists_statement_of_consecutive consecutive
  obtain ⟨⟨head, isHead, headStart⟩, ⟨last, isLast, lastStop⟩, encloses⟩ :=
    exists_ends_of_ofStatement? isStatement declares
  have firstNonempty : first.span.start < first.span.stop :=
    start_lt_stop_of_mem_scan (by rw [consecutive]; simp)
  have tiles : Tiles 0 preamble (tokenize preamble) := tiles_tokensFrom 0 true preamble
  have ordered := tiles.pairwise.sublist (List.filter_sublist (p := (!·.kind.isTrivia)))
  rw [whole, List.pairwise_append, List.pairwise_append] at ordered
  obtain ⟨_, ⟨_, _, beforeFollowing⟩, afterPrior⟩ := ordered
  have inStatement {token : Token} (inside : token ∈ Statement.significant statement.tokens) :
      token ∈ statement.tokens := (List.mem_filter.mp inside).1
  have upToStatement : Statement.depthThrough 0
      ((prior ++ statement.tokens).filter fun token => token.stop ≤ offset) = 0 := by
    refine (Statement.depthThrough_filter_of_level (fun token member dropped => ?_) 0).trans outside
    -- Only a line break of the statement can be dropped.
    refine Statement.depthAfter_of_not_isSignificant (Bool.eq_false_iff.mpr fun significant => ?_)
    have past : offset < token.stop := Nat.lt_of_not_le (of_decide_eq_false dropped)
    rcases List.mem_append.mp member with isPrior | isInside
    · have := afterPrior token isPrior head (List.mem_append_left _ (inStatement isHead))
      omega
    · simp only [Token.isSignificant, Bool.and_eq_true] at significant
      have := (encloses token (List.mem_filter.mpr ⟨isInside, significant.1.2⟩)).2
      omega
  have pastStatement : ∀ token ∈ statement.following.filter fun token => token.stop ≤ offset,
      ∀ depth, Statement.depthAfter depth token = depth := by
    intro token kept
    obtain ⟨follows, ends⟩ := List.mem_filter.mp kept
    have inPreamble :=
      mem_tokenize_of_mem_statements isStatement token (List.mem_append_right _ follows)
    refine Statement.depthAfter_of_not_isSignificant
      (not_isSignificant_between consecutive inPreamble ?_ ?_)
    · exact lastStop ▸ beforeFollowing last (inStatement isLast) token follows
    · exact Nat.le_trans (of_decide_eq_true ends) stop
  have code : ((tokenize preamble).filter fun token => token.stop ≤ offset).filter
        (!·.kind.isTrivia) =
      (prior ++ (statement.tokens ++ statement.following)).filter
        fun token => token.stop ≤ offset := by
    rw [← whole, List.filter_filter, List.filter_filter]
    exact List.filter_congr fun token _ => Bool.and_comm _ _
  rw [depthAt, ← Statement.depthThrough_filter, code, ← List.append_assoc, List.filter_append,
    Statement.depthThrough_append, upToStatement, Statement.depthThrough_of_level pastStatement]

end Consecutive

/--
**Declarations partition the significant tokens of a preamble.**  They stand in order and are not
empty, each reaches from the beginning of a token to the end of a token, every token that is no
comment, no line break and not the end of the file lies in exactly one of them, and no bracket is
open between one and the next.
-/
theorem scan_partitions (preamble : Text) : Partitions preamble (scan preamble) where
  nonempty _ member := start_lt_stop_of_mem_scan member
  ordered := pairwise_scan preamble
  placed declaration member := by
    obtain ⟨statement, isStatement, declares⟩ := List.mem_filterMap.mp member
    obtain ⟨⟨first, isFirst, start⟩, ⟨last, isLast, stop⟩, _⟩ :=
      exists_ends_of_ofStatement? isStatement declares
    obtain ⟨firstInside, firstKind⟩ :=
      exists_mem_significant_iff.mp ⟨statement, isStatement, isFirst⟩
    obtain ⟨lastInside, lastKind⟩ := exists_mem_significant_iff.mp ⟨statement, isStatement, isLast⟩
    exact ⟨⟨first, firstInside, firstKind, start⟩, last, lastInside, lastKind, stop⟩
  covered token member significant := by
    obtain ⟨declaration, isDeclaration, encloses⟩ := exists_encloses member significant
    refine ⟨declaration, ⟨isDeclaration, encloses⟩, fun other others => ?_⟩
    exact eq_of_encloses (start_lt_stop_of_isSignificant member significant) others.1
      isDeclaration others.2 encloses
  outside := by
    refine List.isChain_iff_forall_rel_of_append_cons_cons.mpr ?_
    intro first second earlier later consecutive offset start stop
    exact depthAt_eq_zero_between consecutive start stop

end Declaration

end ComponentTsx
