import ComponentTsx.GenericClause

/-!
# Where a bracket is closed

A token opens a bracket, closes one or leaves them as they are (`bracketStep`),
whatever follows it.  So the tokens through a closing bracket begin the tokens
they are taken from, and a bracket that some tokens close is closed by them
whatever follows.  If they leave it open, then only a token after them can close
it (`takeClosing_append_cases`).
-/

namespace ComponentTsx.GenericClause

set_option autoImplicit false

/-- What becomes of open brackets at a token. -/
inductive BracketStep where
  /-- These inner brackets are open after the token. -/
  | goesOn (inner : List Bracket)
  /-- The token closes the outer bracket. -/
  | closes
  /-- The token closes a bracket of another kind, or there are no more tokens. -/
  | fails

/-- What a token of a kind does in the bracket `outer` with the brackets `inner` open. -/
def bracketStep (outer : Bracket) (inner : List Bracket) : TokenKind → BracketStep
  | .opening bracket => .goesOn (bracket :: inner)
  | .closing bracket =>
      match inner with
      | [] => if bracket = outer then .closes else .fails
      | innermost :: others => if bracket = innermost then .goesOn others else .fails
  | .endOfFile => .fails
  | _ => .goesOn inner

variable {outer : Bracket} {inner : List Bracket} {tokens taken : List Token}

/-- Tokens are taken one by one, as each leaves the brackets. -/
theorem takeClosing_cons (token : Token) (rest : List Token) :
    takeClosing outer inner (token :: rest) =
      match bracketStep outer inner token.kind with
      | .goesOn inner => (takeClosing outer inner rest).map (token :: ·)
      | .closes => some [token]
      | .fails => none := by
  rw [takeClosing]
  cases token.kind with
  | closing bracket =>
      cases inner with
      | nil => by_cases same : bracket = outer <;> simp [bracketStep, same]
      | cons innermost others => by_cases same : bracket = innermost <;> simp [bracketStep, same]
  | _ => rfl

/-- If a bracket is closed, the first token closes it or leaves it to the rest. -/
theorem takeClosing_cons_cases {token : Token} {rest : List Token}
    (closed : takeClosing outer inner (token :: rest) = some taken) :
    bracketStep outer inner token.kind = .closes ∧ taken = [token] ∨
      ∃ next later, bracketStep outer inner token.kind = .goesOn next ∧
        takeClosing outer next rest = some later ∧ taken = token :: later := by
  rw [takeClosing_cons] at closed
  split at closed
  · rename_i next step
    obtain ⟨later, closedLater, rfl⟩ := Option.map_eq_some_iff.mp closed
    exact .inr ⟨next, later, step, closedLater, rfl⟩
  · rename_i step
    exact .inl ⟨step, (Option.some.inj closed).symm⟩
  · cases closed

/-- A bracket that some tokens close is closed by them whatever follows. -/
theorem takeClosing_append (closed : takeClosing outer inner tokens = some taken)
    (more : List Token) : takeClosing outer inner (tokens ++ more) = some taken := by
  induction tokens generalizing inner taken with
  | nil => cases closed
  | cons token rest ih =>
      rw [List.cons_append, takeClosing_cons]
      rcases takeClosing_cons_cases closed with ⟨step, rfl⟩ | ⟨next, later, step, goesOn, rfl⟩
      · rw [step]
      · simp only [step, ih goesOn, Option.map_some]

/-- The tokens through a closing bracket begin the tokens, and they alone close it. -/
theorem takeClosing_self (closed : takeClosing outer inner tokens = some taken) :
    taken <+: tokens ∧ takeClosing outer inner taken = some taken := by
  induction tokens generalizing inner taken with
  | nil => cases closed
  | cons token rest ih =>
      rcases takeClosing_cons_cases closed with ⟨step, rfl⟩ | ⟨next, later, step, goesOn, rfl⟩
      · refine ⟨List.cons_prefix_cons.mpr ⟨rfl, List.nil_prefix⟩, ?_⟩
        rw [takeClosing_cons, step]
      · obtain ⟨begins, alone⟩ := ih goesOn
        refine ⟨List.cons_prefix_cons.mpr ⟨rfl, begins⟩, ?_⟩
        rw [takeClosing_cons, step]
        simp only [alone, Option.map_some]

/-- The end of the file is not among the tokens through a closing bracket. -/
theorem ne_endOfFile_of_takeClosing (closed : takeClosing outer inner tokens = some taken) :
    ∀ token ∈ taken, token.kind ≠ .endOfFile := by
  induction tokens generalizing inner taken with
  | nil => cases closed
  | cons token rest ih =>
      have fails (isEnd : token.kind = .endOfFile) :
          bracketStep outer inner token.kind = .fails := by
        rw [isEnd]
        rfl
      rcases takeClosing_cons_cases closed with ⟨step, rfl⟩ | ⟨next, later, step, goesOn, rfl⟩
      · refine List.forall_mem_cons.mpr ⟨fun isEnd => ?_, fun _ none => nomatch none⟩
        cases step.symm.trans (fails isEnd)
      · refine List.forall_mem_cons.mpr ⟨fun isEnd => ?_, ih goesOn⟩
        cases step.symm.trans (fails isEnd)

/--
A bracket closed by some tokens and more is closed by the first ones alone, or only by one of the
others.
-/
theorem takeClosing_append_cases {more : List Token}
    (closed : takeClosing outer inner (tokens ++ more) = some taken) :
    takeClosing outer inner tokens = some taken ∨
      takeClosing outer inner tokens = none ∧
        ∃ later, later ≠ [] ∧ later <+: more ∧ taken = tokens ++ later := by
  cases own : takeClosing outer inner tokens with
  | some ownTaken =>
      rw [takeClosing_append own] at closed
      exact .inl closed
  | none =>
      refine .inr ⟨rfl, ?_⟩
      obtain ⟨begins, alone⟩ := takeClosing_self closed
      rcases List.prefix_or_prefix_of_prefix begins (List.prefix_append tokens more) with
        short | ⟨later, rfl⟩
      · obtain ⟨rest, rfl⟩ := short
        rw [takeClosing_append alone] at own
        cases own
      · refine ⟨later, ?_, (List.prefix_append_right_inj tokens).mp begins, rfl⟩
        rintro rfl
        rw [List.append_nil, own] at alone
        cases alone

/-- At least the closing bracket is taken. -/
theorem exists_getLast?_of_takeClosing (closed : takeClosing outer inner tokens = some taken) :
    ∃ last, taken.getLast? = some last := by
  cases tokens with
  | nil => cases closed
  | cons token rest =>
      rcases takeClosing_cons_cases closed with ⟨_, rfl⟩ | ⟨next, later, _, _, rfl⟩
      · exact ⟨token, rfl⟩
      · exact ⟨_, List.getLast?_cons⟩

/-! ## Clauses -/

section Clause

variable {head : Token} (kept : (Statement.isLineBreak head || head.kind.isTrivia) = false)

include kept

/-- A clause is there if the first token opens a bracket and the rest closes it. -/
theorem tokens?_cons (rest : List Token) :
    tokens? (head :: rest) =
      if head.kind = .opening .angle then (takeClosing .angle [] rest).map (head :: ·)
      else none := by
  rw [tokens?, List.dropWhile_cons_of_neg (by rw [kept]; exact Bool.false_ne_true)]

/-- A clause is the text from its first token through the one that closes it. -/
theorem exists_closing_of_extract? {source : Text} {rest : List Token} {clause : GenericClause}
    (reads : extract? source (head :: rest) = some clause) :
    head.kind = .opening .angle ∧ ∃ taken last, takeClosing .angle [] rest = some taken ∧
      taken.getLast? = some last ∧ source.slice? head.start last.stop = some clause.raw := by
  rw [extract?, tokens?_cons kept] at reads
  by_cases opens : head.kind = .opening .angle
  · rw [if_pos opens] at reads
    refine ⟨opens, ?_⟩
    cases closed : takeClosing .angle [] rest with
    | none =>
        rw [closed] at reads
        cases reads
    | some taken =>
        obtain ⟨last, isLast⟩ := exists_getLast?_of_takeClosing closed
        refine ⟨taken, last, rfl, isLast, ?_⟩
        simp only [closed, Option.map_some, Option.bind_eq_bind, Option.bind_some,
          List.head?_cons, List.getLast?_cons, isLast, Option.getD_some] at reads
        obtain ⟨raw, cut, made⟩ := Option.bind_eq_some_iff.mp reads
        cases made
        exact cut
  · rw [if_neg opens] at reads
    cases reads

end Clause

end ComponentTsx.GenericClause
