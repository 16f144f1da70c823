import ComponentTsx.Proofs.Statement.Uncut
import ComponentTsx.Proofs.Token.Relocation
import ComponentTsx.Proofs.Token.Spelling

/-!
# Spelling a statement

Tokens are spelled with gaps between them, which may contain line breaks inside
brackets only (`Spells`).  Of a gap the splitter sees no more than its line
breaks (`exists_breaks_of_isGap`).  So if it ends no statement at any of the
tokens, the text is one statement with these tokens, however it is spelled
(`exists_splitFrom_of_spells`).
-/

namespace ComponentTsx

set_option autoImplicit false

/-- The token moved to the beginning of a text. -/
def Token.placeless (token : Token) : Token := { token with start := 0 }

theorem Token.relocates_placeless : Token.Relocates Token.placeless :=
  ⟨⟨fun _ => rfl, fun _ _ => rfl⟩, fun _ => rfl⟩

/-- The depth after a lexeme. -/
def Lexeme.depthAfter (depth : Nat) (lexeme : Lexeme) : Nat :=
  Statement.depthAfter depth (lexeme.token 0)

/--
A text of lexemes, at a depth, with gaps between them.  The gap between two words is not empty, and
line breaks stand inside brackets only.
-/
inductive Spells : Nat → List Lexeme → Text → Prop
  | last {depth : Nat} (lexeme : Lexeme) : Spells depth [lexeme] lexeme.text
  | next {depth : Nat} {lexeme next : Lexeme} {rest : List Lexeme} {gap text : Text}
      (isGap : IsGap (0 < lexeme.depthAfter depth) gap)
      (apart : lexeme.kind = .identifier → next.kind = .identifier → gap ≠ [])
      (later : Spells (lexeme.depthAfter depth) (next :: rest) text) :
      Spells depth (lexeme :: next :: rest) (lexeme.text ++ (gap ++ text))

namespace Statement

section Spells

variable {depth : Nat} {lexeme : Lexeme} {rest : List Lexeme} {text : Text}

theorem filter_lexeme (lexeme : Lexeme) (start : Nat) (tokens : List Token) :
    (lexeme.token start :: tokens).filter (!·.kind.isTrivia) =
      lexeme.token start :: tokens.filter (!·.kind.isTrivia) :=
  List.filter_cons_of_pos (by simp [Lexeme.token, lexeme.isTrivia_kind])

theorem isLineBreak_lexeme (lexeme : Lexeme) (start : Nat) :
    isLineBreak (lexeme.token start) = false := by
  refine Bool.eq_false_iff.mpr fun isBreak => ?_
  exact lexeme.kind_ne_newline (kind_of_isLineBreak isBreak)

/-- The first token of a spelling is its first lexeme, and the gap comes next. -/
theorem exists_tokensFrom_of_spells (spells : Spells depth (lexeme :: rest) text) (start : Nat)
    (operandExpected : Bool) :
    ∃ expectedAfter after, text = lexeme.text ++ after ∧
      tokensFrom start operandExpected text =
        lexeme.token start :: tokensFrom (start + lexeme.text.byteLength) expectedAfter after := by
  cases spells with
  | last =>
      obtain ⟨expectedAfter, lexed⟩ :=
        exists_tokensFrom_lexeme lexeme [] (by simp) start operandExpected
      rw [List.append_nil] at lexed
      exact ⟨expectedAfter, [], (List.append_nil _).symm, lexed⟩
  | @next _ _ next _ gap text isGap apart later =>
      have ends (isWord : lexeme.kind = .identifier) :
          ∀ char ∈ (gap ++ text).head?, ¬ continuesIdentifier char := by
        by_cases empty : gap = []
        · subst empty
          have noWord : next.kind ≠ .identifier := fun isNextWord => apart isWord isNextWord rfl
          obtain ⟨more, rfl⟩ : ∃ more, text = next.text ++ more := by
            cases later with
            | last => exact ⟨[], (List.append_nil _).symm⟩
            | next => exact ⟨_, rfl⟩
          exact next.not_continuesIdentifier_head noWord more
        · exact fun char isNext => (isGap.standsApart empty text char isNext).1
      obtain ⟨expectedAfter, lexed⟩ :=
        exists_tokensFrom_lexeme lexeme (gap ++ text) ends start operandExpected
      exact ⟨expectedAfter, gap ++ text, rfl, lexed⟩

/-- The splitter goes on at a lexeme where no statement ends. -/
theorem splitFrom_lexeme {tokens : List Token} (start : Nat) (pending : List Token)
    (uncut : endsWith (lexeme.depthAfter depth) (lexeme.token start) tokens = false) :
    splitFrom depth pending (lexeme.token start :: tokens) =
      splitFrom (lexeme.depthAfter depth) (lexeme.token start :: pending) tokens := by
  refine splitFrom_cons_of_uncut lexeme.kind_ne_endOfFile ?_
  rw [cuts, isLineBreak_lexeme]
  exact uncut

theorem endsWith_lexeme {tokens others : List Token}
    (next : tokens.head?.any (·.isOneOf startWords) = others.head?.any (·.isOneOf startWords))
    (start : Nat) :
    endsWith depth (lexeme.token start) tokens = endsWith depth (lexeme.token 0) others := by
  simp only [endsWith, Lexeme.token, next]

/-- Without comments, a gap is no more than its line breaks. -/
theorem exists_breaks_of_isGap {breaksAllowed : Prop} {gap : Text} (isGap : IsGap breaksAllowed gap)
    (start : Nat) (operandExpected : Bool) (rest : Text) :
    ∃ breaks expectedAfter,
      (tokensFrom start operandExpected (gap ++ rest)).filter (!·.kind.isTrivia) =
        breaks ++
          (tokensFrom (start + gap.byteLength) expectedAfter rest).filter (!·.kind.isTrivia) ∧
      (∀ token ∈ breaks, isLineBreak token) ∧ (breaks ≠ [] → breaksAllowed) ∧
      (breaks = [] ↔ IsGap False gap) := by
  by_cases onLine : IsGap False gap
  · obtain ⟨between, expectedAfter, lexed, plain, _⟩ :=
      exists_tokensFrom_gap onLine start operandExpected rest
    have none : between.filter (!·.kind.isTrivia) = [] := by
      refine List.filter_eq_nil_iff.mpr fun token member => ?_
      rcases plain token member with isTrivia | ⟨never, _⟩
      · simp [isTrivia]
      · exact never.elim
    refine ⟨[], expectedAfter, ?_, List.forall_mem_nil _, absurd rfl, iff_of_true rfl onLine⟩
    rw [lexed, List.filter_append, none]
  · obtain ⟨between, expectedAfter, lexed, plain, staysOnLine⟩ :=
      exists_tokensFrom_gap isGap start operandExpected rest
    have areBreaks : ∀ token ∈ between.filter (!·.kind.isTrivia),
        breaksAllowed ∧ token.kind = .newline := by
      intro token member
      obtain ⟨member, noTrivia⟩ := List.mem_filter.mp member
      rcases plain token member with isTrivia | isBreak
      · simp [isTrivia] at noTrivia
      · exact isBreak
    have some : between.filter (!·.kind.isTrivia) ≠ [] := by
      refine fun none => onLine (staysOnLine fun token member isNewline => ?_)
      have isTrivia := List.filter_eq_nil_iff.mp none token member
      rw [isNewline] at isTrivia
      exact isTrivia rfl
    refine ⟨between.filter (!·.kind.isTrivia), expectedAfter, ?_, fun token member => ?_,
      fun nonempty => ?_, iff_of_false some onLine⟩
    · rw [lexed, List.filter_append]
    · rw [isLineBreak, (areBreaks token member).2]
    · obtain ⟨token, member⟩ := List.exists_mem_of_ne_nil _ nonempty
      exact (areBreaks token member).1

/-- **A spelling is one statement**, if no lexeme ends it. -/
theorem exists_splitFrom_of_spells {lexemes : List Lexeme} (spells : Spells depth lexemes text)
    (undivided : Undivided depth (lexemes.map (·.token 0))) (start : Nat) (operandExpected : Bool)
    (pending : List Token) :
    ∃ tokens stop,
      splitFrom depth pending
          ((tokensFrom start operandExpected text).filter (!·.kind.isTrivia)) =
        [⟨pending.reverse ++ tokens, [⟨.endOfFile, stop, []⟩]⟩] ∧
      (significant tokens).map Token.placeless = lexemes.map (·.token 0) ∧
      (∃ first ∈ (significant tokens).head?, first.start = start) ∧
      ∃ last ∈ (significant tokens).getLast?, last.stop = start + text.byteLength := by
  induction spells generalizing start operandExpected pending with
  | @last depth lexeme =>
      obtain ⟨expectedAfter, lexed⟩ :=
        exists_tokensFrom_lexeme lexeme [] (by simp) start operandExpected
      have isFirst : significant [lexeme.token start] = [lexeme.token start] :=
        significant_cons (by simp [isLineBreak_lexeme]) []
      rw [List.append_nil, tokensFrom_nil] at lexed
      have uncut : endsWith (lexeme.depthAfter depth) (lexeme.token start)
          [⟨.endOfFile, start + lexeme.text.byteLength, []⟩] = false :=
        (endsWith_lexeme (by rfl) start).trans undivided.1
      refine ⟨[lexeme.token start], start + lexeme.text.byteLength, ?_, ?_⟩
      · rw [lexed, filter_lexeme]
        exact (splitFrom_lexeme start pending uncut).trans (by simp [splitFrom])
      · rw [isFirst]
        exact ⟨rfl, ⟨_, rfl, rfl⟩, ⟨_, rfl, rfl⟩⟩
  | @next depth lexeme next rest gap text isGap apart later ih =>
      obtain ⟨here, undivided⟩ := undivided
      obtain ⟨expectedAfter, after, whole, lexed⟩ := exists_tokensFrom_of_spells
        (.next isGap apart later) start operandExpected
      cases List.append_cancel_left whole
      obtain ⟨breaks, expectedThere, lexedGap, areBreaks, inside, _⟩ := exists_breaks_of_isGap isGap
        (start + lexeme.text.byteLength) expectedAfter text
      obtain ⟨tokens, stop, one, same, isFirst, last, isLast, ends⟩ := ih undivided
        (start + lexeme.text.byteLength + gap.byteLength) expectedThere
        (breaks.reverse ++ lexeme.token start :: pending)
      obtain ⟨_, _, _, lexedLater⟩ := exists_tokensFrom_of_spells later
        (start + lexeme.text.byteLength + gap.byteLength) expectedThere
      -- Outside brackets the next lexeme comes at once, and no statement ends before it.
      have uncut : endsWith (lexeme.depthAfter depth) (lexeme.token start) (breaks ++
          (tokensFrom (start + lexeme.text.byteLength + gap.byteLength) expectedThere
            text).filter (!·.kind.isTrivia)) = false := by
        by_cases outside : lexeme.depthAfter depth = 0
        · have none : breaks = [] := by
            by_contra nonempty
            exact Nat.ne_of_gt (inside nonempty) outside
          rw [none, List.nil_append, lexedLater, filter_lexeme]
          exact (endsWith_lexeme rfl start).trans here
        · rw [endsWith, decide_eq_false outside, Bool.false_and]
      have kept : significant (lexeme.token start :: (breaks ++ tokens)) =
          lexeme.token start :: significant tokens := by
        rw [significant_cons (by simp [isLineBreak_lexeme]), significant_append,
          significant_of_breaks areBreaks, List.nil_append]
      refine ⟨lexeme.token start :: (breaks ++ tokens), stop, ?_, ?_⟩
      · rw [lexed, filter_lexeme, lexedGap, splitFrom_lexeme start pending uncut,
          splitFrom_append_breaks areBreaks fun nonempty => .inl (inside nonempty), one]
        simp
      rw [kept]
      refine ⟨congrArg (lexeme.token 0 :: ·) same, ⟨_, rfl, rfl⟩, last, ?_, ?_⟩
      · rw [List.getLast?_cons, isLast]
        rfl
      · rw [ends, Text.byteLength_append, Text.byteLength_append, Nat.add_assoc, Nat.add_assoc]

end Spells

end Statement

end ComponentTsx
