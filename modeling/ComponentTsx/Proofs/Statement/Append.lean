import ComponentTsx.Statement

/-!
# Statements before and after the end of a statement

The splitter looks ahead at most to the next token that is no line break, and
its depth and its pending tokens begin anew after a statement.  So a semicolon
outside brackets divides its work: the statements up to it are found without
what follows, and those after it without what precedes
(`splitFrom_append_semicolon`).

A line break at the beginning of the tokens belongs to no statement, or is a
token of the first one that plays no part (`map_withoutBreaks_splitFrom`).
-/

namespace ComponentTsx.Statement

set_option autoImplicit false

/-- The number of open braces, parentheses and square brackets after some tokens. -/
def depthThrough (depth : Nat) (tokens : List Token) : Nat := tokens.foldl depthAfter depth

theorem depthThrough_append (depth : Nat) (first second : List Token) :
    depthThrough depth (first ++ second) = depthThrough (depthThrough depth first) second :=
  List.foldl_append

/-- Leaving out tokens that leave the depth as it is changes nothing. -/
theorem depthThrough_filter_of_level {keep : Token → Bool} {tokens : List Token}
    (level : ∀ token ∈ tokens, keep token = false → ∀ depth, depthAfter depth token = depth)
    (depth : Nat) : depthThrough depth (tokens.filter keep) = depthThrough depth tokens := by
  induction tokens generalizing depth with
  | nil => rfl
  | cons token rest ih =>
      obtain ⟨here, later⟩ := List.forall_mem_cons.mp level
      cases kept : keep token with
      | true =>
          rw [List.filter_cons_of_pos kept]
          exact ih later (depthAfter depth token)
      | false =>
          rw [List.filter_cons_of_neg (by simp [kept]), ih later]
          exact congrArg (depthThrough · rest) (here kept depth).symm

theorem depthThrough_of_level {tokens : List Token}
    (level : ∀ token ∈ tokens, ∀ depth, depthAfter depth token = depth) (depth : Nat) :
    depthThrough depth tokens = depth := by
  induction tokens with
  | nil => rfl
  | cons token rest ih =>
      obtain ⟨here, later⟩ := List.forall_mem_cons.mp level
      exact (congrArg (depthThrough · rest) (here depth)).trans (ih later)

/-- Comments leave the depth as it is. -/
theorem depthThrough_filter (depth : Nat) (tokens : List Token) :
    depthThrough depth (tokens.filter (!·.kind.isTrivia)) = depthThrough depth tokens := by
  refine depthThrough_filter_of_level (fun token _ trivia depth => ?_) depth
  unfold depthAfter
  split <;> simp_all [TokenKind.isTrivia]

/-- The statement with more tokens after it. -/
def followedBy (rest : List Token) (statement : Statement) : Statement :=
  { statement with following := statement.following ++ rest }

/-- A statement ends outside brackets only. -/
theorem eq_zero_of_endsWith {depth : Nat} {token : Token} {rest : List Token}
    (ends : endsWith depth token rest) : depth = 0 := by
  rw [endsWith, Bool.and_eq_true, decide_eq_true_eq] at ends
  exact ends.1

theorem kind_of_isLineBreak {token : Token} (isBreak : isLineBreak token) :
    token.kind = .newline := by
  unfold isLineBreak at isBreak
  split at isBreak
  · assumption
  · cases isBreak

theorem depthAfter_of_isLineBreak {token : Token} (isBreak : isLineBreak token) (depth : Nat) :
    depthAfter depth token = depth := by
  rw [depthAfter, kind_of_isLineBreak isBreak]

/-- A line break that ends a statement stands outside brackets. -/
theorem depthAfter_of_breaks {depth : Nat} {token : Token} {goesOn : Bool}
    (breaks : (isLineBreak token && depth = 0 && !goesOn) = true) : depthAfter depth token = 0 := by
  simp only [Bool.and_eq_true, decide_eq_true_eq] at breaks
  rw [depthAfter_of_isLineBreak breaks.1.1, breaks.1.2]

/-! ## Looking ahead no further than a semicolon -/

/-- What comes after a token that is no line break does not matter to a line break before it. -/
theorem continuesAcross_append {stop : Token} (noBreak : isLineBreak stop = false)
    (pending before rest : List Token) :
    continuesAcross pending (before ++ stop :: rest) =
      continuesAcross pending (before ++ [stop]) := by
  have found : (before ++ stop :: rest).find? (!isLineBreak ·) =
      (before ++ [stop]).find? (!isLineBreak ·) := by
    simp [List.find?_append, noBreak]
  simp only [continuesAcross, found]

theorem endsWith_append (depth : Nat) (token stop : Token) (before rest : List Token) :
    endsWith depth token (before ++ stop :: rest) = endsWith depth token (before ++ [stop]) := by
  cases before with
  | nil => rfl
  | cons head before => rfl

section Semicolon

variable {semicolon : Token} (isSemicolon : semicolon.kind = .semicolon)

include isSemicolon

theorem not_isLineBreak_semicolon : isLineBreak semicolon = false := by
  rw [isLineBreak, isSemicolon]

/-- **A semicolon outside brackets divides the statements into those before and those after it.** -/
theorem splitFrom_append_semicolon (depth : Nat) (pending before rest : List Token)
    (noEnd : ∀ token ∈ before, token.kind ≠ .endOfFile)
    (outside : depthThrough depth before = 0) :
    splitFrom depth pending (before ++ semicolon :: rest) =
      (splitFrom depth pending (before ++ [semicolon])).map (followedBy rest) ++
        splitFrom 0 [] rest := by
  induction before generalizing depth pending with
  | nil =>
      have outside : depth = 0 := outside
      subst outside
      simp [splitFrom, isSemicolon, not_isLineBreak_semicolon isSemicolon, endsWith, depthAfter,
        followedBy]
  | cons token before ih =>
      have notEnd : token.kind ≠ .endOfFile := noEnd token (List.mem_cons_self ..)
      have noEnd : ∀ token ∈ before, token.kind ≠ .endOfFile :=
        fun other member => noEnd other (List.mem_cons_of_mem _ member)
      have outside : depthThrough (depthAfter depth token) before = 0 := outside
      rw [List.cons_append, List.cons_append, splitFrom, if_neg notEnd,
        continuesAcross_append (not_isLineBreak_semicolon isSemicolon), endsWith_append, splitFrom,
        if_neg notEnd]
      by_cases breaks : isLineBreak token && depth = 0 &&
          !continuesAcross pending (before ++ [semicolon])
      · have level : depthAfter depth token = 0 := depthAfter_of_breaks breaks
        rw [level] at outside
        rw [if_pos breaks, if_pos breaks, ih 0 [] noEnd outside]
        simp [followedBy]
      · rw [if_neg breaks, if_neg breaks]
        by_cases ends : endsWith (depthAfter depth token) token (before ++ [semicolon])
        · have level : depthAfter depth token = 0 := eq_zero_of_endsWith ends
          rw [level] at outside
          rw [if_pos ends, if_pos ends, ih 0 [] noEnd outside]
          simp [followedBy]
        · rw [if_neg ends, if_neg ends]
          exact ih (depthAfter depth token) (token :: pending) noEnd outside

end Semicolon

/-! ## Line breaks within a statement -/

/-- The statement without the line breaks among its tokens. -/
def withoutBreaks (statement : Statement) : Statement :=
  { statement with tokens := significant statement.tokens }

theorem significant_cons_of_isLineBreak {token : Token} (isBreak : isLineBreak token)
    (rest : List Token) : significant (token :: rest) = significant rest :=
  List.filter_cons_of_neg (by simp [isBreak])

theorem significant_cons {token : Token} (noBreak : ¬ isLineBreak token) (rest : List Token) :
    significant (token :: rest) = token :: significant rest :=
  List.filter_cons_of_pos (by simp [noBreak])

theorem significant_append (first second : List Token) :
    significant (first ++ second) = significant first ++ significant second :=
  List.filter_append ..

theorem opensBody_cons_of_isLineBreak {token : Token} (isBreak : isLineBreak token) (angles : Nat)
    (rest : List Token) : opensBody angles (token :: rest) = opensBody angles rest := by
  rw [opensBody, kind_of_isLineBreak isBreak]

theorem opensBody_significant (angles : Nat) (tokens : List Token) :
    opensBody angles (significant tokens) = opensBody angles tokens := by
  induction tokens generalizing angles with
  | nil => rfl
  | cons token rest ih =>
      by_cases isBreak : isLineBreak token
      · rw [significant_cons_of_isLineBreak isBreak, ih, opensBody_cons_of_isLineBreak isBreak]
      · rw [significant_cons isBreak, opensBody, opensBody]
        simp only [ih]

theorem significant_reverse (tokens : List Token) :
    significant tokens.reverse = (significant tokens).reverse := List.filter_reverse

/-- Line breaks before it do not change whether a statement goes on after a line break. -/
theorem continuesAcross_congr {first second : List Token}
    (same : significant first = significant second) (rest : List Token) :
    continuesAcross first rest = continuesAcross second rest := by
  have header : awaitsInterfaceBody first.reverse = awaitsInterfaceBody second.reverse := by
    simp only [awaitsInterfaceBody, ← opensBody_significant 0 first.reverse,
      ← opensBody_significant 0 second.reverse, significant_reverse, same]
  have previous : first.find? (!isLineBreak ·) = second.find? (!isLineBreak ·) := by
    rw [← List.head?_filter, ← List.head?_filter]
    exact congrArg List.head? same
  simp only [continuesAcross, previous, header]

/-- Line breaks among the pending tokens change nothing but the line breaks of a statement. -/
theorem map_withoutBreaks_splitFrom {first second : List Token}
    (same : significant first = significant second) (depth : Nat) (tokens : List Token) :
    (splitFrom depth first tokens).map withoutBreaks =
      (splitFrom depth second tokens).map withoutBreaks := by
  induction tokens generalizing depth first second with
  | nil => rfl
  | cons token rest ih =>
      have sameNext : significant (token :: first) = significant (token :: second) := by
        by_cases isBreak : isLineBreak token
        · rw [significant_cons_of_isLineBreak isBreak, significant_cons_of_isLineBreak isBreak,
            same]
        · rw [significant_cons isBreak, significant_cons isBreak, same]
      rw [splitFrom, splitFrom, continuesAcross_congr same]
      split
      · simp [withoutBreaks, significant_reverse, same]
      · split
        · simp [withoutBreaks, significant_reverse, same]
        · split
          · simp only [List.map_cons, withoutBreaks, significant_reverse, sameNext]
          · exact ih sameNext (depthAfter depth token)

end ComponentTsx.Statement
