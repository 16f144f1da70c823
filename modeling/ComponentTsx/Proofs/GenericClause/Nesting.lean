import ComponentTsx.Proofs.GenericClause.Rereading

/-!
# A clause is the first balanced group of angle brackets

Brackets are well nested if they are closed in pairs, each by one of its own
kind (`WellNested`).  The reader of clauses goes through the tokens once and
knows of those behind it only which brackets they leave open (`LeavesOpen`).
Each token after which it goes on keeps this up (`LeavesOpen.step`).  So what it
has read when the clause ends is well nested, and when there is no clause, the
token at which it stops shows why (`LeftOpen`).

Hence a clause is found exactly when the tokens, comments and line breaks aside,
begin with `<`, a well-nested word and `>`; there is at most one such beginning,
and its text is that of the clause (`extract?_isAngleGroup`).
-/

namespace ComponentTsx

set_option autoImplicit false

namespace TokenKind

/-- Tokens of the kind neither open nor close a bracket, and do not end the file. -/
def isPlain : TokenKind → Bool
  | opening _ | closing _ | endOfFile => false
  | _ => true

/-- Tokens of the kind have no part in the names of parameters. -/
def isSilent : TokenKind → Bool
  | opening _ | closing _ | comma | equals | identifier => false
  | _ => true

end TokenKind

namespace GenericClause

/-! ## Well-nested brackets -/

/-- Tokens in which each bracket is closed by one of its own kind, and none is left open. -/
inductive WellNested : List Token → Prop
  | nil : WellNested []
  | plain {token : Token} {rest : List Token} (isPlain : token.kind.isPlain)
      (nested : WellNested rest) : WellNested (token :: rest)
  | pair {bracket : Bracket} {opening closing : Token} {inside rest : List Token}
      (opens : opening.kind = .opening bracket) (closes : closing.kind = .closing bracket)
      (within : WellNested inside) (nested : WellNested rest) :
      WellNested (opening :: (inside ++ closing :: rest))

theorem WellNested.append {first second : List Token} (nested : WellNested first)
    (more : WellNested second) : WellNested (first ++ second) := by
  induction nested with
  | nil => exact more
  | plain isPlain _ ih => exact .plain isPlain ih
  | pair opens closes within _ _ ih =>
      rw [List.cons_append, List.append_assoc, List.cons_append]
      exact .pair opens closes within ih

/-- As many of well-nested brackets open as close. -/
theorem WellNested.countP_eq {word : List Token} (nested : WellNested word) :
    word.countP (·.kind.closer?.isSome) = word.countP (·.kind.isCloser) := by
  induction nested with
  | nil => rfl
  | @plain token rest isPlain _ ih =>
      have neither : token.kind.closer?.isSome = false ∧ token.kind.isCloser = false := by
        cases kind : token.kind <;> simp_all [TokenKind.isPlain, TokenKind.closer?,
          TokenKind.isCloser]
      simp [neither, ih]
  | @pair bracket opening closing inside rest opens closes _ _ ihWithin ih =>
      simp [opens, closes, ihWithin, ih]
      omega

/-- Tokens that leave brackets open, the innermost of them first, and close all others in pairs. -/
inductive LeavesOpen : List Bracket → List Token → Prop
  | nothing {word : List Token} (nested : WellNested word) : LeavesOpen [] word
  | opening {inner : List Bracket} {bracket : Bracket} {opening : Token} {word rest : List Token}
      (leaves : LeavesOpen inner word) (opens : opening.kind = .opening bracket)
      (nested : WellNested rest) : LeavesOpen (bracket :: inner) (word ++ opening :: rest)

namespace LeavesOpen

variable {inner : List Bracket} {word more : List Token}

theorem wellNested (leaves : LeavesOpen [] word) : WellNested word := by
  cases leaves with
  | nothing nested => exact nested

/-- After well-nested tokens the same brackets are open as before. -/
theorem append (leaves : LeavesOpen inner word) (nested : WellNested more) :
    LeavesOpen inner (word ++ more) := by
  cases leaves with
  | nothing nestedBefore => exact .nothing (nestedBefore.append nested)
  | opening leaves opens nestedBefore =>
      rw [List.append_assoc, List.cons_append]
      exact .opening leaves opens (nestedBefore.append nested)

end LeavesOpen

/-! ## One token -/

section Step

variable {outer : Bracket} {inner next : List Bracket} {word : List Token} {token : Token}

/-- What a token does to the bracket `outer` in which the brackets `inner` are open. -/
inductive StepsBy (outer : Bracket) : List Bracket → Token → BracketStep → Prop
  | plain {inner : List Bracket} {token : Token} (isPlain : token.kind.isPlain) :
      StepsBy outer inner token (.goesOn inner)
  | opening {inner : List Bracket} {token : Token} {bracket : Bracket}
      (opens : token.kind = .opening bracket) :
      StepsBy outer inner token (.goesOn (bracket :: inner))
  | innermost {inner : List Bracket} {token : Token} {bracket : Bracket}
      (closes : token.kind = .closing bracket) :
      StepsBy outer (bracket :: inner) token (.goesOn inner)
  | outermost {token : Token} (closes : token.kind = .closing outer) :
      StepsBy outer [] token .closes
  | mismatch {inner : List Bracket} {token : Token} {bracket other : Bracket}
      (isInnermost : (inner ++ [outer]).head? = some bracket)
      (closes : token.kind = .closing other) (different : other ≠ bracket) :
      StepsBy outer inner token .fails
  | endOfFile {inner : List Bracket} {token : Token} (ends : token.kind = .endOfFile) :
      StepsBy outer inner token .fails

theorem stepsBy (outer : Bracket) (inner : List Bracket) (token : Token) :
    StepsBy outer inner token (bracketStep outer inner token.kind) := by
  cases kind : token.kind with
  | opening bracket => exact .opening kind
  | endOfFile => exact .endOfFile kind
  | closing other =>
      cases inner with
      | nil =>
          by_cases same : other = outer
          · rw [same] at kind ⊢
            simpa [bracketStep] using StepsBy.outermost kind
          · simpa [bracketStep, same] using StepsBy.mismatch rfl kind same
      | cons bracket others =>
          by_cases same : other = bracket
          · rw [same] at kind ⊢
            simpa [bracketStep] using StepsBy.innermost kind
          · simpa [bracketStep, same] using StepsBy.mismatch rfl kind same
  | _ => exact .plain (by rw [kind]; rfl)

/-- A token after which the clause goes on leaves open what the reader goes on with. -/
theorem LeavesOpen.step (leaves : LeavesOpen inner word)
    (steps : StepsBy outer inner token (.goesOn next)) : LeavesOpen next (word ++ [token]) := by
  cases steps with
  | plain isPlain => exact leaves.append (.plain isPlain .nil)
  | opening opens => exact .opening leaves opens .nil
  | innermost closes =>
      cases leaves with
      | opening leaves opens nested =>
          rw [List.append_assoc, List.cons_append]
          exact leaves.append (.pair opens closes nested .nil)

end Step

/-! ## From the reader to the brackets -/

variable {outer : Bracket} {inner : List Bracket} {word tokens taken : List Token}

/-- What is read through a closing bracket is well nested up to that bracket. -/
theorem exists_wellNested_of_takeClosing (leaves : LeavesOpen inner word)
    (closed : takeClosing outer inner tokens = some taken) :
    ∃ inside closing, word ++ taken = inside ++ [closing] ∧ closing.kind = .closing outer ∧
      WellNested inside := by
  induction tokens generalizing inner word taken with
  | nil => cases closed
  | cons token rest ih =>
      have steps := stepsBy outer inner token
      rcases takeClosing_cons_cases closed with ⟨step, rfl⟩ | ⟨next, later, step, goesOn, rfl⟩
      · rw [step] at steps
        cases steps with
        | outermost closes => exact ⟨word, token, rfl, closes, leaves.wellNested⟩
      · rw [step] at steps
        obtain ⟨inside, closing, split, closes, nested⟩ := ih (leaves.step steps) goesOn
        exact ⟨inside, closing, by rw [← split, List.append_cons], closes, nested⟩

/--
How tokens can leave the bracket `outer` before them open: they end, the file ends, or a bracket is
closed by one of another kind.
-/
inductive LeftOpen (outer : Bracket) : List Token → Prop
  | exhausted {inner : List Bracket} {word : List Token} (leaves : LeavesOpen inner word) :
      LeftOpen outer word
  | endOfFile {inner : List Bracket} {word rest : List Token} {token : Token}
      (leaves : LeavesOpen inner word) (ends : token.kind = .endOfFile) :
      LeftOpen outer (word ++ token :: rest)
  | mismatch {inner : List Bracket} {word rest : List Token} {token : Token}
      {bracket other : Bracket} (leaves : LeavesOpen inner word)
      (isInnermost : (inner ++ [outer]).head? = some bracket)
      (closes : token.kind = .closing other) (different : other ≠ bracket) :
      LeftOpen outer (word ++ token :: rest)

/-- Where the reader stops without a closing bracket, the bracket is left open. -/
theorem leftOpen_of_takeClosing (leaves : LeavesOpen inner word)
    (unclosed : takeClosing outer inner tokens = none) : LeftOpen outer (word ++ tokens) := by
  induction tokens generalizing inner word with
  | nil =>
      rw [List.append_nil]
      exact .exhausted leaves
  | cons token rest ih =>
      rw [takeClosing_cons] at unclosed
      have steps := stepsBy outer inner token
      split at unclosed
      · rename_i next step
        rw [step] at steps
        rw [List.append_cons]
        exact ih (leaves.step steps) (Option.map_eq_none_iff.mp unclosed)
      · cases unclosed
      · rename_i step
        rw [step] at steps
        cases steps with
        | mismatch isInnermost closes different =>
            exact .mismatch leaves isInnermost closes different
        | endOfFile ends => exact .endOfFile leaves ends

/-! ## From the brackets to the reader -/

theorem takeClosing_plain {token : Token} (isPlain : token.kind.isPlain) (rest : List Token) :
    takeClosing outer inner (token :: rest) =
      (takeClosing outer inner rest).map (token :: ·) := by
  rw [takeClosing_cons]
  cases kind : token.kind with
  | opening bracket | closing bracket | endOfFile =>
      rw [kind] at isPlain
      cases isPlain
  | _ => rfl

theorem takeClosing_opening {token : Token} {bracket : Bracket}
    (opens : token.kind = .opening bracket) (rest : List Token) :
    takeClosing outer inner (token :: rest) =
      (takeClosing outer (bracket :: inner) rest).map (token :: ·) := by
  rw [takeClosing_cons, opens]
  rfl

theorem takeClosing_innermost {token : Token} {bracket : Bracket}
    (closes : token.kind = .closing bracket) (rest : List Token) :
    takeClosing outer (bracket :: inner) (token :: rest) =
      (takeClosing outer inner rest).map (token :: ·) := by
  rw [takeClosing_cons, closes]
  simp [bracketStep]

/-- Well-nested tokens are passed over. -/
theorem takeClosing_wellNested_append (nested : WellNested word) (rest : List Token) :
    takeClosing outer inner (word ++ rest) = (takeClosing outer inner rest).map (word ++ ·) := by
  induction nested generalizing inner rest with
  | nil => exact Option.map_id'.symm
  | plain isPlain _ ih =>
      rw [List.cons_append, takeClosing_plain isPlain, ih, Option.map_map]
      rfl
  | pair opens closes _ _ ihWithin ih =>
      rw [List.cons_append, List.append_assoc, List.cons_append, takeClosing_opening opens,
        ihWithin, takeClosing_innermost closes, ih, Option.map_map, Option.map_map, Option.map_map]
      simp [Function.comp_def]

/-- Tokens that leave brackets open take the reader to where these are open. -/
theorem takeClosing_leavesOpen_append (leaves : LeavesOpen inner word) (rest : List Token) :
    takeClosing outer [] (word ++ rest) = (takeClosing outer inner rest).map (word ++ ·) := by
  induction leaves generalizing rest with
  | nothing nested => exact takeClosing_wellNested_append nested rest
  | opening _ opens nested ih =>
      rw [List.append_assoc, ih, List.cons_append, takeClosing_opening opens,
        takeClosing_wellNested_append nested, Option.map_map, Option.map_map]
      simp [Function.comp_def]

/-- A bracket has no closing one exactly when it is left open. -/
theorem takeClosing_eq_none_iff : takeClosing outer [] tokens = none ↔ LeftOpen outer tokens := by
  constructor
  · exact leftOpen_of_takeClosing (.nothing .nil)
  · rintro (leaves | @⟨inner, word, rest, token, leaves, ends⟩ |
      @⟨inner, word, rest, token, bracket, other, leaves, isInnermost, closes, different⟩)
    · rw [← List.append_nil tokens, takeClosing_leavesOpen_append leaves]
      rfl
    · rw [takeClosing_leavesOpen_append leaves, takeClosing_cons, ends]
      rfl
    · rw [takeClosing_leavesOpen_append leaves, takeClosing_cons, closes]
      cases inner with
      | nil =>
          cases isInnermost
          simp [bracketStep, different]
      | cons innermost others =>
          cases isInnermost
          simp [bracketStep, different]

/-! ## Comments and line breaks aside -/

/-- The tokens that are neither comments nor line breaks. -/
def significant (tokens : List Token) : List Token :=
  tokens.filter fun token => !(Statement.isLineBreak token || token.kind.isTrivia)

section Significant

variable {token : Token}

theorem significant_cons_of_skipped
    (skipped : (Statement.isLineBreak token || token.kind.isTrivia) = true) (rest : List Token) :
    significant (token :: rest) = significant rest :=
  List.filter_cons_of_neg (by simp [skipped])

theorem significant_cons_of_kept
    (kept : (Statement.isLineBreak token || token.kind.isTrivia) = false) (rest : List Token) :
    significant (token :: rest) = token :: significant rest :=
  List.filter_cons_of_pos (by simp [kept])

theorem kept_of_mem_significant (member : token ∈ significant tokens) :
    (Statement.isLineBreak token || token.kind.isTrivia) = false := by
  simpa using (List.mem_filter.mp member).2

theorem kind_of_skipped
    (skipped : (Statement.isLineBreak token || token.kind.isTrivia) = true) :
    token.kind = .newline ∨ token.kind = .lineComment ∨ token.kind = .blockComment := by
  unfold Statement.isLineBreak at skipped
  cases kind : token.kind <;> simp_all [TokenKind.isTrivia]

/-- Comments and line breaks neither open nor close anything. -/
theorem isPlain_of_skipped
    (skipped : (Statement.isLineBreak token || token.kind.isTrivia) = true) :
    token.kind.isPlain := by
  rcases kind_of_skipped skipped with kind | kind | kind <;> rw [kind] <;> rfl

theorem isSilent_of_skipped
    (skipped : (Statement.isLineBreak token || token.kind.isTrivia) = true) :
    token.kind.isSilent := by
  rcases kind_of_skipped skipped with kind | kind | kind <;> rw [kind] <;> rfl

end Significant

theorem takeClosing_significant :
    takeClosing outer inner (significant tokens) =
      (takeClosing outer inner tokens).map significant := by
  induction tokens generalizing inner with
  | nil => rfl
  | cons token rest ih =>
      cases skipped : Statement.isLineBreak token || token.kind.isTrivia with
      | true =>
          simp only [significant_cons_of_skipped skipped, ih,
            takeClosing_plain (isPlain_of_skipped skipped), Option.map_map, Function.comp_def]
      | false =>
          have kept := significant_cons_of_kept skipped
          rw [kept, takeClosing_cons, takeClosing_cons]
          cases bracketStep outer inner token.kind with
          | goesOn next => simp only [ih, Option.map_map, Function.comp_def, kept]
          | closes => exact congrArg some (kept []).symm
          | fails => rfl

theorem paramNames_silent {token : Token} (silent : token.kind.isSilent) (depth : Nat)
    (name : Option Text) (named : Bool) (rest : List Token) :
    paramNames depth name named (token :: rest) = paramNames depth name named rest := by
  rw [paramNames]
  cases kind : token.kind with
  | opening bracket | closing bracket | comma | equals | identifier =>
      rw [kind] at silent
      cases silent
  | _ => rfl

/-- Parameters have the same names without tokens that have no part in names. -/
theorem paramNames_filter {keeps : Token → Bool}
    (dropped : ∀ token : Token, keeps token = false → token.kind.isSilent) (depth : Nat)
    (name : Option Text) (named : Bool) (tokens : List Token) :
    paramNames depth name named (tokens.filter keeps) = paramNames depth name named tokens := by
  induction tokens generalizing depth name named with
  | nil => rfl
  | cons token rest ih =>
      cases kept : keeps token with
      | false =>
          rw [List.filter_cons_of_neg (by simp [kept]), ih,
            paramNames_silent (dropped token kept)]
      | true =>
          rw [List.filter_cons_of_pos kept, paramNames, paramNames]
          split <;> simp only [ih]

theorem paramNames_significant (tokens : List Token) :
    paramNames 0 none false (significant tokens) = paramNames 0 none false tokens :=
  paramNames_filter (fun _ dropped => isSilent_of_skipped ((Bool.not_eq_false' _).mp dropped)) ..

/-- The significant tokens of a clause are those of a clause among the significant tokens. -/
theorem tokens?_significant (tokens : List Token) :
    tokens? (significant tokens) = (tokens? tokens).map significant := by
  induction tokens with
  | nil => rfl
  | cons token rest ih =>
      cases skipped : Statement.isLineBreak token || token.kind.isTrivia with
      | true =>
          have passed : tokens? (token :: rest) = tokens? rest := by
            simp only [tokens?, List.dropWhile_cons, skipped, if_true]
          rw [significant_cons_of_skipped skipped, ih, passed]
      | false =>
          have kept := significant_cons_of_kept skipped
          rw [kept, tokens?_cons skipped, tokens?_cons skipped, takeClosing_significant]
          split
          · simp only [Option.map_map, Function.comp_def, kept]
          · rfl

/-! ## Groups of angle brackets -/

/--
Tokens that begin with `<` and end with the `>` that closes it, and have only well-nested brackets
between them.
-/
structure IsAngleGroup (word : List Token) (opening : Token) (inside : List Token)
    (closing : Token) : Prop where
  whole : word = opening :: (inside ++ [closing])
  opens : opening.kind = .opening .angle
  closes : closing.kind = .closing .angle
  nested : WellNested inside

theorem IsAngleGroup.isClause {opening closing : Token} {inside : List Token}
    (group : IsAngleGroup word opening inside closing) : IsClause word opening inside closing where
  whole := group.whole
  opens := group.opens
  isClose := group.closes
  closes := by
    rw [takeClosing_wellNested_append group.nested, takeClosing_cons, group.closes]
    rfl

/-- **The brackets of a group come in pairs**: as many open as close, the first with the last. -/
theorem IsAngleGroup.pairs {opening closing : Token} {inside : List Token}
    (group : IsAngleGroup word opening inside closing) :
    opening.kind.closer? = some closing.kind ∧
      word.countP (·.kind.closer?.isSome) = word.countP (·.kind.isCloser) := by
  constructor
  · rw [group.opens, group.closes]
    rfl
  · simp [group.whole, group.nested.countP_eq, group.opens, group.closes]

/-- The significant tokens of a clause are the first group of angle brackets. -/
theorem tokens?_significant_eq_some_iff :
    tokens? (significant tokens) = some word ↔
      word <+: significant tokens ∧ ∃ opening inside closing,
        IsAngleGroup word opening inside closing := by
  constructor
  · intro found
    cases among : significant tokens with
    | nil =>
        rw [among] at found
        cases found
    | cons opening rest =>
        have kept := kept_of_mem_significant (among ▸ List.mem_cons_self)
        rw [among, tokens?_cons kept] at found
        split at found
        · rename_i opens
          obtain ⟨taken, closed, rfl⟩ := Option.map_eq_some_iff.mp found
          obtain ⟨inside, closing, split, closes, nested⟩ :=
            exists_wellNested_of_takeClosing (.nothing .nil) closed
          rw [List.nil_append] at split
          exact ⟨List.cons_prefix_cons.mpr ⟨rfl, (takeClosing_self closed).1⟩, opening, inside,
            closing, by rw [split], opens, closes, nested⟩
        · cases found
  · rintro ⟨⟨more, whole⟩, opening, inside, closing, group⟩
    rw [← whole]
    exact group.isClause.tokens?_append more

/-- How tokens can have no clause: they do not begin with `<`, or leave it open. -/
inductive HasNoClause : List Token → Prop
  | otherwise {tokens : List Token}
      (begins : ∀ first, tokens.head? = some first → first.kind ≠ .opening .angle) :
      HasNoClause tokens
  | leftOpen {opening : Token} {rest : List Token} (opens : opening.kind = .opening .angle)
      (unclosed : LeftOpen .angle rest) : HasNoClause (opening :: rest)

theorem tokens?_significant_eq_none_iff :
    tokens? (significant tokens) = none ↔ HasNoClause (significant tokens) := by
  cases among : significant tokens with
  | nil => exact iff_of_true rfl (.otherwise (by simp))
  | cons opening rest =>
      have kept := kept_of_mem_significant (among ▸ List.mem_cons_self)
      rw [tokens?_cons kept]
      by_cases opens : opening.kind = .opening .angle
      · rw [if_pos opens, Option.map_eq_none_iff, takeClosing_eq_none_iff]
        refine ⟨.leftOpen opens, ?_⟩
        rintro (begins | ⟨_, unclosed⟩)
        · exact absurd opens (begins opening rfl)
        · exact unclosed
      · rw [if_neg opens]
        refine iff_of_true rfl (.otherwise ?_)
        rintro first ⟨⟩
        exact opens

/-! ## Clauses and groups -/

section Clause

variable {source : Text} {opening closing : Token} {inside : List Token}

/-- A clause that the tokens of a source have is there in the source. -/
theorem exists_extract?_of_tokens? (slice : tokens <:+: tokenize source) {clause : List Token}
    (found : tokens? tokens = some clause) :
    ∃ opening inside close raw, IsClause clause opening inside close ∧
      source.slice? opening.start close.stop = some raw ∧
      extract? source tokens = some ⟨raw, paramNames 0 none false inside⟩ := by
  obtain ⟨among, opening, inside, close, isClause⟩ := exists_isClause_of_tokens? found
  obtain ⟨before, middle, after, rfl, start, stop, _⟩ := isClause.exists_raw (among.trans slice)
  have cut := Text.slice?_append before ('<' :: middle ++ ['>']) after
  rw [← stop, ← start] at cut
  refine ⟨opening, inside, close, _, isClause, cut, ?_⟩
  rw [isClause.extract?_eq found, cut, Option.map_some]

/-- Comments and line breaks stand between the brackets of a clause only. -/
theorem significant_of_isClause {clause : List Token} {close : Token}
    (isClause : IsClause clause opening inside close) :
    significant clause = opening :: (significant inside ++ [close]) := by
  have kept (bracket : Token) (kind : bracket.kind = .opening .angle ∨
      bracket.kind = .closing .angle) :
      (Statement.isLineBreak bracket || bracket.kind.isTrivia) = false := by
    unfold Statement.isLineBreak
    rcases kind with kind | kind <;> rw [kind] <;> rfl
  rw [isClause.whole, significant_cons_of_kept (kept opening (.inl isClause.opens)), significant,
    List.filter_append, ← significant, ← significant,
    significant_cons_of_kept (kept close (.inr isClause.isClose))]
  rfl

/-- A group of angle brackets at the beginning is the clause. -/
theorem extract?_of_isAngleGroup (slice : tokens <:+: tokenize source)
    (begins : word <+: significant tokens) (group : IsAngleGroup word opening inside closing) :
    ∃ raw, source.slice? opening.start closing.stop = some raw ∧
      extract? source tokens = some ⟨raw, paramNames 0 none false inside⟩ := by
  have found := tokens?_significant_eq_some_iff.mpr ⟨begins, opening, inside, closing, group⟩
  rw [tokens?_significant] at found
  obtain ⟨clause, isFound, rfl⟩ := Option.map_eq_some_iff.mp found
  obtain ⟨first, between, last, raw, isClause, cut, reads⟩ :=
    exists_extract?_of_tokens? slice isFound
  have same := (significant_of_isClause isClause).symm.trans group.whole
  obtain ⟨rfl, ends⟩ := List.cons.inj same
  obtain ⟨rfl, isLast⟩ := List.append_inj' ends rfl
  cases isLast
  exact ⟨raw, cut, by rw [reads, paramNames_significant]⟩

/--
**A clause is the first balanced group of angle brackets.**  Tokens of a source have a clause
exactly when, comments and line breaks aside, they begin with a group of angle brackets.  There is
at most one such group, and the clause is the text from its first bracket through its last one.
There is no clause exactly when the tokens do not begin with `<`, or when they or the file end, or a
bracket is closed by one of another kind, before this `<` is closed.
-/
theorem extract?_isAngleGroup (slice : tokens <:+: tokenize source) :
    ((extract? source tokens).isSome ↔ ∃ word opening inside closing,
      word <+: significant tokens ∧ IsAngleGroup word opening inside closing) ∧
    (∀ word opening inside closing, word <+: significant tokens →
      IsAngleGroup word opening inside closing →
        (∀ other first between last, other <+: significant tokens →
          IsAngleGroup other first between last → other = word) ∧
        ∃ clause, extract? source tokens = some clause ∧
          source.slice? opening.start closing.stop = some clause.raw) ∧
    (extract? source tokens = none ↔ HasNoClause (significant tokens)) := by
  have groups (word : List Token) := @tokens?_significant_eq_some_iff word tokens
  have isSome : (extract? source tokens).isSome = (tokens? (significant tokens)).isSome := by
    rw [tokens?_significant, Option.isSome_map]
    cases found : tokens? tokens with
    | none => simp [extract?, found]
    | some clause =>
        obtain ⟨_, _, _, _, _, _, reads⟩ := exists_extract?_of_tokens? slice found
        rw [reads]
        rfl
  refine ⟨?_, fun word opening inside closing begins group => ⟨?_, ?_⟩, ?_⟩
  · rw [isSome, Option.isSome_iff_exists]
    constructor
    · rintro ⟨word, found⟩
      obtain ⟨begins, opening, inside, closing, group⟩ := (groups word).mp found
      exact ⟨word, opening, inside, closing, begins, group⟩
    · rintro ⟨word, opening, inside, closing, begins, group⟩
      exact ⟨word, (groups word).mpr ⟨begins, opening, inside, closing, group⟩⟩
  · intro other first between last otherBegins otherGroup
    have found := (groups word).mpr ⟨begins, opening, inside, closing, group⟩
    have otherFound := (groups other).mpr ⟨otherBegins, first, between, last, otherGroup⟩
    exact Option.some.inj (otherFound.symm.trans found)
  · obtain ⟨raw, cut, reads⟩ := extract?_of_isAngleGroup slice begins group
    exact ⟨_, reads, cut⟩
  · rw [← tokens?_significant_eq_none_iff, ← Option.isNone_iff_eq_none,
      ← Option.isNone_iff_eq_none, ← Option.not_isSome, ← Option.not_isSome, isSome]

/-- Brackets of three kinds with a bracket in a comment, and one closed by another kind. -/
theorem extract?_isAngleGroup_nested :
    let source : Text := "<T extends \x7b [key in K]: () => A<B> \x7d, // >\n> \x7b\x7d".toList
    let crossed : Text := "<T extends \x7b a: [string \x7d ]>".toList
    (tokenize source <:+: tokenize source ∧ tokenize crossed <:+: tokenize crossed) ∧
      (∃ word opening inside closing, word <+: significant (tokenize source) ∧
        IsAngleGroup word opening inside closing) ∧
      HasNoClause (significant (tokenize crossed)) := by
  intro source crossed
  have slice : tokenize source <:+: tokenize source := List.infix_rfl
  have crossedSlice : tokenize crossed <:+: tokenize crossed := List.infix_rfl
  exact ⟨⟨slice, crossedSlice⟩, (extract?_isAngleGroup slice).1.mp (by decide +kernel),
    (extract?_isAngleGroup crossedSlice).2.2.mp (by decide +kernel)⟩

end Clause

end GenericClause

end ComponentTsx
