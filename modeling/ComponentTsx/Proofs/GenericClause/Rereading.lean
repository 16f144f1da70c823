import ComponentTsx.Proofs.ComponentName.Word
import ComponentTsx.Proofs.Declaration.Relocation
import ComponentTsx.Proofs.GenericClause.Closing
import ComponentTsx.Tsx

/-!
# Clauses on their own

A clause that is cut out of its source is read as it was there.  Its first
character is a token of its own wherever it stands, and behind it an operand is
expected; so the lexer starts into the clause in the same state.  The tokens in
the clause end before its last character, and are found without what follows it,
but for one kind: a division is a division only as long as no regular expression
ends on the rest of its line.  At the end of a text none does, nor in what
follows the clause in the signature of a component (`EndsNoRegex`).

So the clause has the same tokens in all three texts, and with them the same
brackets and the same parameters (`extract?_raw`).  In the signature they follow
four words, the name of the function the last (`tokenize_beforeClause`).
-/

namespace ComponentTsx

set_option autoImplicit false

/-! ## Regular expressions -/

namespace Literal

/-- No regular expression that has begun before a text ends in it. -/
def EndsNoRegex (text : Text) : Prop := ∀ inClass, regexLength? inClass text = none

theorem endsNoRegex_nil : EndsNoRegex [] := fun _ => rfl

/-- A regular expression ends with a slash. -/
theorem endsNoRegex_of_notMem {text : Text} (noSlash : '/' ∉ text) : EndsNoRegex text := by
  intro inClass
  fun_induction regexLength? inClass text with
  | case1 inClass => rfl
  | case2 inClass => rfl
  | case3 inClass hidden rest ih =>
      rw [ih (mt (List.mem_cons_of_mem _ <| List.mem_cons_of_mem _ ·) noSlash), Option.map_none]
  | case4 inClass char rest noEscape isBreak => rfl
  | case5 inClass char rest noEscape noBreak isEnd =>
      exact absurd (isEnd.1 ▸ List.mem_cons_self) noSlash
  | case6 inClass char rest noEscape noBreak noEnd inClass' ih =>
      rw [ih (mt (List.mem_cons_of_mem _ ·) noSlash), Option.map_none]

/--
A regular expression that does not end behind a closing angle bracket is found or missed alike when
what follows the bracket ends none, should it be missed.
-/
theorem regexLength?_angle {inClass : Bool} {text more other : Text}
    (ends : (regexLength? inClass (text ++ '>' :: more)).getD 0 ≤ text.length)
    (endsNone : regexLength? inClass (text ++ '>' :: more) = none → EndsNoRegex other) :
    regexLength? inClass (text ++ '>' :: other) = regexLength? inClass (text ++ '>' :: more) := by
  fun_induction regexLength? inClass text with
  | case1 inClass =>
      have step (later : Text) : regexLength? inClass ('>' :: later) =
          (regexLength? inClass later).map (· + 1) := by
        simp [regexLength?]
      rw [List.nil_append, step] at ends endsNone
      rw [List.nil_append, List.nil_append, step, step]
      cases found : regexLength? inClass more with
      | none => rw [endsNone (by rw [found, Option.map_none])]
      | some length =>
          rw [found] at ends
          exact absurd ends (Nat.not_succ_le_zero length)
  | case2 inClass =>
      -- The backslash hides the bracket.
      have step (later : Text) : regexLength? inClass (['\\'] ++ '>' :: later) =
          (regexLength? inClass later).map (· + 2) := rfl
      rw [step] at ends endsNone
      rw [step, step]
      cases found : regexLength? inClass more with
      | none => rw [endsNone (by rw [found, Option.map_none])]
      | some length =>
          rw [found] at ends
          exact absurd (Nat.le_of_succ_le_succ ends) (Nat.not_succ_le_zero length)
  | case3 inClass hidden rest ih =>
      simp only [List.cons_append, regexLength?, Option.map_eq_none_iff] at ends endsNone ⊢
      rw [ih ?_ endsNone]
      cases found : regexLength? inClass (rest ++ '>' :: more) with
      | none => exact Nat.zero_le _
      | some length =>
          rw [found] at ends
          exact Nat.le_of_add_le_add_right ends
  | case4 inClass char rest noEscape isBreak =>
      rw [List.cons_append, List.cons_append, regexLength?, regexLength?, if_pos isBreak,
        if_pos isBreak] <;> exact noEscape
  | case5 inClass char rest noEscape noBreak isEnd =>
      have noFlag : ¬ Char.isAlpha '>' := by decide
      rw [List.cons_append, List.cons_append, regexLength?, regexLength?, if_neg noBreak,
        if_neg noBreak, if_pos isEnd, if_pos isEnd, takeWhile_append_cons noFlag,
        takeWhile_append_cons noFlag] <;> exact noEscape
  | case6 inClass char rest noEscape noBreak noEnd inClass' ih =>
      have step (later : Text) : regexLength? inClass (char :: rest ++ later) =
          (regexLength? inClass' (rest ++ later)).map (· + 1) := by
        rw [List.cons_append, regexLength?, if_neg noBreak, if_neg noEnd]
        exact noEscape
      rw [step] at ends endsNone
      rw [Option.map_eq_none_iff] at endsNone
      rw [step, step, ih ?_ endsNone]
      cases found : regexLength? inClass' (rest ++ '>' :: more) with
      | none => exact Nat.zero_le _
      | some length =>
          rw [found] at ends
          exact Nat.le_of_succ_le_succ ends

end Literal

/-! ## Bracket tokens -/

/-- A bracket token is one character, the bracket. -/
theorem punctuation?_of_readToken {operandExpected : Bool} {first : Char} {rest : Text}
    {kind : TokenKind} {length : Nat} {bracket : Bracket}
    (read : readToken operandExpected first rest = (kind, length))
    (isBracket : kind = .opening bracket ∨ kind = .closing bracket) :
    punctuation? first = some kind ∧ length = 0 := by
  have noBracket {other : TokenKind} {count : Nat} (same : (other, count) = (kind, length))
      (different : other ≠ .opening bracket ∧ other ≠ .closing bracket) : False := by
    cases same
    exact isBracket.elim different.1 different.2
  unfold readToken readSlash at read
  repeat' split at read
  all_goals first
    | exact (noBracket read ⟨TokenKind.noConfusion, TokenKind.noConfusion⟩).elim
    | skip
  cases found : punctuation? first with
  | none =>
      rw [found] at read
      exact (noBracket read ⟨TokenKind.noConfusion, TokenKind.noConfusion⟩).elim
  | some other =>
      rw [found] at read
      cases read
      exact ⟨rfl, rfl⟩

/-- What stands at an angle bracket among tokens: the bracket, and then the tokens after it. -/
theorem exists_angle_of_tokensFrom {start : Nat} {operandExpected : Bool} {text : Text}
    {earlier later : List Token} {token : Token} (mark : Char)
    (isMark : mark = '<' ∧ token.kind = .opening .angle ∨
      mark = '>' ∧ token.kind = .closing .angle)
    (lexed : tokensFrom start operandExpected text = earlier ++ token :: later) :
    ∃ before rest, text = before ++ mark :: rest ∧
      token = ⟨token.kind, start + Text.byteLength before, [mark]⟩ ∧
      later = tokensFrom token.stop true rest := by
  have isBracket : token.kind = .opening .angle ∨ token.kind = .closing .angle :=
    isMark.imp And.right And.right
  have notEnd : token.kind ≠ .endOfFile := by
    rintro isEnd
    rw [isEnd] at isBracket
    exact isBracket.elim TokenKind.noConfusion TokenKind.noConfusion
  obtain ⟨before, first, rest, length, whole, place, taken, read, following⟩ :=
    exists_read_of_tokensFrom notEnd lexed
  obtain ⟨single, rfl⟩ := punctuation?_of_readToken read isBracket
  have isFirst : first = mark := by
    unfold punctuation? at single
    rcases isMark with ⟨rfl, kind⟩ | ⟨rfl, kind⟩ <;> rw [kind] at single <;> split at single <;>
      first | rfl | cases single
  have expected : (earlier ++ [token]).foldl operandExpectedAfter operandExpected = true := by
    rw [List.foldl_append, List.foldl_cons, List.foldl_nil, operandExpectedAfter]
    rcases isBracket with kind | kind <;> rw [kind]
  subst isFirst
  refine ⟨before, rest, whole, ?_, ?_⟩
  · rw [← place]
    cases token
    simp_all
  · rw [following, expected, List.drop_zero]

/-- An angle bracket is a token behind which an operand is expected, wherever it stands. -/
theorem tokensFrom_opening (start : Nat) (operandExpected : Bool) (rest : Text) :
    tokensFrom start operandExpected ('<' :: rest) =
      ⟨.opening .angle, start, ['<']⟩ :: tokensFrom (start + 1) true rest :=
  tokensFrom_token (by decide) rfl start

theorem tokensFrom_closing (start : Nat) (operandExpected : Bool) (rest : Text) :
    tokensFrom start operandExpected ('>' :: rest) =
      ⟨.closing .angle, start, ['>']⟩ :: tokensFrom (start + 1) true rest :=
  tokensFrom_token (by decide) rfl start

/-- The tokens before a closing angle bracket do not change with what follows the bracket. -/
theorem tokensFrom_angle {text more other : Text} {start : Nat} {operandExpected : Bool}
    {earlier later : List Token} {close : Token}
    (place : close.start = start + text.byteLength)
    (lexed : tokensFrom start operandExpected (text ++ '>' :: more) = earlier ++ close :: later)
    (endsNone : Literal.EndsNoRegex other) :
    tokensFrom start operandExpected (text ++ '>' :: other) =
      earlier ++ close :: tokensFrom close.stop true other := by
  obtain ⟨expected, here, replaced⟩ := tokensFrom_replaced (fun expected first rest _ ends =>
    readToken_endsAlike (.refl '>')
      (fun _ _ inside => Literal.regexLength?_angle inside fun _ => endsNone) ends) place lexed
  rw [tokensFrom_closing] at here
  obtain ⟨isClose, _⟩ := List.cons.inj here
  rw [replaced, tokensFrom_closing, isClose]
  congr 3
  rw [← isClose]
  rfl

namespace GenericClause

/-! ## The tokens of a clause -/

/-- The kinds and texts of the tokens of a clause, with the comments and line breaks in it. -/
def contents? (tokens : List Token) : Option (List (TokenKind × Text)) :=
  (tokens? tokens).map (List.map fun token => (token.kind, token.text))

theorem contents?_map_shift (distance : Nat) (tokens : List Token) :
    contents? (tokens.map (Token.shift distance)) = contents? tokens := by
  rw [contents?, tokens?_map (Token.relocates_shift distance), Option.map_map, contents?]
  simp only [Function.comp_def, List.map_map]
  rfl

theorem eq_closing_of_bracketStep {outer : Bracket} {inner : List Bracket} {kind : TokenKind}
    (step : bracketStep outer inner kind = .closes) : kind = .closing outer := by
  cases kind with
  | closing bracket =>
      cases inner with
      | nil => by_cases same : bracket = outer <;> simp_all [bracketStep]
      | cons innermost others => by_cases same : bracket = innermost <;> simp_all [bracketStep]
  | _ => cases step

/-- The last of the tokens through a closing bracket is that bracket. -/
theorem exists_closing_of_takeClosing {outer : Bracket} {inner : List Bracket}
    {tokens taken : List Token} (closed : takeClosing outer inner tokens = some taken) :
    ∃ before last, taken = before ++ [last] ∧ last.kind = .closing outer := by
  induction tokens generalizing inner taken with
  | nil => cases closed
  | cons token rest ih =>
      rcases takeClosing_cons_cases closed with ⟨step, rfl⟩ | ⟨next, later, _, goesOn, rfl⟩
      · exact ⟨[], token, rfl, eq_closing_of_bracketStep step⟩
      · obtain ⟨before, last, rfl, isLast⟩ := ih goesOn
        exact ⟨token :: before, last, rfl, isLast⟩

/-- The tokens of a clause: an opening angle bracket and the tokens that close it. -/
structure IsClause (clause : List Token) (opening : Token) (inside : List Token) (close : Token) :
    Prop where
  whole : clause = opening :: (inside ++ [close])
  opens : opening.kind = .opening .angle
  isClose : close.kind = .closing .angle
  closes : takeClosing .angle [] (inside ++ [close]) = some (inside ++ [close])

theorem exists_isClause_of_tokens? {tokens clause : List Token}
    (found : tokens? tokens = some clause) :
    clause <:+: tokens ∧ ∃ opening inside close, IsClause clause opening inside close := by
  have suffix := List.dropWhile_suffix (l := tokens)
    fun token => Statement.isLineBreak token || token.kind.isTrivia
  unfold tokens? at found
  split at found
  · cases found
  · rename_i first rest remain
    split at found
    · rename_i opens
      obtain ⟨taken, closed, rfl⟩ := Option.map_eq_some_iff.mp found
      obtain ⟨begins, alone⟩ := takeClosing_self closed
      obtain ⟨inside, close, rfl, isClose⟩ := exists_closing_of_takeClosing closed
      refine ⟨?_, first, inside, close, rfl, opens, isClose, alone⟩
      exact ((List.cons_prefix_cons.mpr ⟨rfl, begins⟩).isInfix).trans (remain ▸ suffix.isInfix)
    · cases found

/-- The tokens of a clause have the clause whatever follows them. -/
theorem IsClause.tokens?_append {clause inside : List Token} {opening close : Token}
    (isClause : IsClause clause opening inside close) (more : List Token) :
    tokens? (clause ++ more) = some clause := by
  have kept : (Statement.isLineBreak opening || opening.kind.isTrivia) = false := by
    rw [Statement.isLineBreak, isClause.opens]
    rfl
  rw [isClause.whole, List.cons_append, tokens?_cons kept, if_pos isClause.opens,
    takeClosing_append isClause.closes, Option.map_some]

/-- A clause is read from its tokens and its text in the source. -/
theorem IsClause.extract?_eq {tokens clause inside : List Token} {opening close : Token}
    (isClause : IsClause clause opening inside close) (found : tokens? tokens = some clause)
    (source : Text) :
    extract? source tokens =
      (source.slice? opening.start close.stop).map (⟨·, paramNames 0 none false inside⟩) := by
  have isFirst : clause.head? = some opening := by
    rw [isClause.whole]
    rfl
  have isLast : clause.getLast? = some close := by
    rw [isClause.whole, ← List.cons_append, List.getLast?_concat]
  have within : clause.tail.dropLast = inside := by
    rw [isClause.whole, List.tail_cons, List.dropLast_concat]
  simp only [extract?, found, Option.bind_eq_bind, Option.bind_some, isFirst, isLast, within]
  exact (Option.map_eq_bind ..).symm

/-! ## Clauses in another text -/

/--
The text of a clause in its source, and the tokens that the lexer finds wherever it comes to that
text, if what follows ends no regular expression.
-/
theorem IsClause.exists_raw {source : Text} {clause inside : List Token} {opening close : Token}
    (isClause : IsClause clause opening inside close) (among : clause <:+: tokenize source) :
    ∃ before middle after, source = before ++ ('<' :: middle ++ ['>']) ++ after ∧
      opening.start = before.byteLength ∧
      close.stop = before.byteLength + Text.byteLength ('<' :: middle ++ ['>']) ∧
      ∀ operandExpected other, Literal.EndsNoRegex other → ∃ rest,
        tokensFrom before.byteLength operandExpected ('<' :: middle ++ ['>'] ++ other) =
          clause ++ rest := by
  obtain ⟨front, back, lexed⟩ := among
  rw [isClause.whole, List.append_assoc, List.cons_append, List.append_assoc] at lexed
  obtain ⟨before, rest, rfl, isOpening, following⟩ :=
    exists_angle_of_tokensFrom '<' (.inl ⟨rfl, isClause.opens⟩) lexed.symm
  obtain ⟨middle, after, rfl, atClose, _⟩ :=
    exists_angle_of_tokensFrom '>' (.inr ⟨rfl, isClause.isClose⟩) following.symm
  rw [Nat.zero_add] at isOpening
  have openingStop : opening.stop = before.byteLength + 1 := by
    rw [isOpening]
    rfl
  have closePlace : close.start = opening.stop + middle.byteLength := congrArg Token.start atClose
  refine ⟨before, middle, after, by simp, congrArg Token.start isOpening, ?_,
    fun operandExpected other endsNone => ⟨tokensFrom close.stop true other, ?_⟩⟩
  · have isBracket : close.text = ['>'] := congrArg Token.text atClose
    rw [Token.stop, closePlace, openingStop, isBracket, Text.byteLength_append,
      Text.byteLength_cons '<']
    have size : Char.utf8Size '<' = 1 := rfl
    omega
  · have inner := tokensFrom_angle closePlace following.symm endsNone
    have here : opening = ⟨.opening .angle, before.byteLength, ['<']⟩ := by
      rw [isOpening, isClause.opens]
    have text : '<' :: middle ++ ['>'] ++ other = '<' :: (middle ++ '>' :: other) := by simp
    rw [text, tokensFrom_opening, ← openingStop, inner, ← here, isClause.whole]
    simp

/-- The text of a clause is cut from its source, angle brackets included. -/
theorem exists_raw_of_extract? {source : Text} {tokens : List Token} {clause : GenericClause}
    (slice : tokens <:+: tokenize source) (reads : extract? source tokens = some clause) :
    clause.raw <:+: source ∧ ∃ middle, clause.raw = '<' :: middle ++ ['>'] := by
  obtain ⟨found, isFound, _⟩ := Option.bind_eq_some_iff.mp reads
  obtain ⟨among, opening, inside, close, isClause⟩ := exists_isClause_of_tokens? isFound
  obtain ⟨before, middle, after, rfl, start, stop, _⟩ := isClause.exists_raw (among.trans slice)
  rw [isClause.extract?_eq isFound, start, stop, Text.slice?_append] at reads
  cases reads
  exact ⟨⟨before, after, rfl⟩, middle, rfl⟩

/--
**A clause is read alike wherever its text stands**, if what follows ends no regular expression.
-/
theorem extract?_raw_append {source : Text} {tokens : List Token} {clause : GenericClause}
    (slice : tokens <:+: tokenize source) (reads : extract? source tokens = some clause)
    (before : Text) (operandExpected : Bool) {other : Text}
    (endsNone : Literal.EndsNoRegex other) :
    extract? (before ++ (clause.raw ++ other))
        (tokensFrom before.byteLength operandExpected (clause.raw ++ other)) = some clause ∧
      contents? (tokensFrom before.byteLength operandExpected (clause.raw ++ other)) =
        contents? tokens := by
  obtain ⟨found, isFound, _⟩ := Option.bind_eq_some_iff.mp reads
  obtain ⟨among, opening, inside, close, isClause⟩ := exists_isClause_of_tokens? isFound
  obtain ⟨earlier, middle, after, rfl, start, stop, lexes⟩ :=
    isClause.exists_raw (among.trans slice)
  rw [isClause.extract?_eq isFound, start, stop, Text.slice?_append] at reads
  cases reads
  obtain ⟨rest, lexed⟩ := lexes operandExpected other endsNone
  have moved (place : Nat) := tokensFrom_add 0 place operandExpected
    ('<' :: middle ++ ['>'] ++ other)
  simp only [Nat.zero_add] at moved
  rw [moved] at lexed ⊢
  constructor
  · rw [extract?_append, ← extract?_append earlier, lexed, ← List.append_assoc,
      isClause.extract?_eq (isClause.tokens?_append rest), start, stop, Text.slice?_append]
    rfl
  · rw [contents?_map_shift, ← contents?_map_shift earlier.byteLength, lexed, contents?, contents?,
      isClause.tokens?_append, isFound]

/-! ## The signature of a component -/

/-- The names of parameters are identifiers in the clause. -/
theorem mem_paramNames {depth : Nat} {name : Option Text} {named : Bool} {tokens : List Token}
    {param : Text} (member : param ∈ paramNames depth name named tokens) :
    name = some param ∨ ∃ token ∈ tokens, token.kind = .identifier ∧ token.text = param := by
  have later {first : Token} {rest : List Token} :
      (∃ token ∈ rest, token.kind = .identifier ∧ token.text = param) →
        ∃ token ∈ first :: rest, token.kind = .identifier ∧ token.text = param :=
    fun ⟨token, among, isParam⟩ => ⟨token, List.mem_cons_of_mem first among, isParam⟩
  fun_induction paramNames depth name named tokens with
  | case1 => exact .inl (Option.mem_toList.mp member)
  | case4 name named token rest isComma ih =>
      rcases List.mem_append.mp member with here | member
      · exact .inl (Option.mem_toList.mp here)
      · exact .inr ((ih member).elim (fun none => nomatch none) later)
  | case8 depth name named token rest isIdentifier level noKeyword ih =>
      rcases ih member with here | among
      · exact .inr ⟨token, List.mem_cons_self, isIdentifier, Option.some.inj here⟩
      · exact .inr (later among)
  | case2 _ _ _ _ _ _ _ ih => exact (ih member).imp_right later
  | case3 _ _ _ _ _ _ _ ih => exact (ih member).imp_right later
  | case5 _ _ _ _ _ _ _ ih => exact (ih member).imp_right later
  | case6 _ _ _ _ _ _ ih => exact (ih member).imp_right later
  | case7 _ _ _ _ _ _ _ _ ih => exact (ih member).imp_right later
  | case9 _ _ _ _ _ _ _ ih => exact (ih member).imp_right later
  | case10 _ _ _ _ _ _ _ _ _ _ ih => exact (ih member).imp_right later

theorem isWord_of_mem_params {source : Text} {tokens : List Token} {clause : GenericClause}
    (slice : tokens <:+: tokenize source) (reads : extract? source tokens = some clause)
    {param : Text} (member : param ∈ clause.params) : param.isWord := by
  obtain ⟨found, isFound, _⟩ := Option.bind_eq_some_iff.mp reads
  obtain ⟨among, opening, inside, close, isClause⟩ := exists_isClause_of_tokens? isFound
  rw [isClause.extract?_eq isFound] at reads
  obtain ⟨raw, _, rfl⟩ := Option.map_eq_some_iff.mp reads
  rcases mem_paramNames member with none | ⟨token, isInside, isIdentifier, rfl⟩
  · cases none
  · refine isWord_of_mem_tokensFrom ((among.trans slice).subset ?_) isIdentifier
    rw [isClause.whole]
    exact List.mem_cons_of_mem _ (List.mem_append_left _ isInside)

theorem mem_intercalate {separator : Text} {texts : List Text} {char : Char}
    (member : char ∈ separator.intercalate texts) :
    char ∈ separator ∨ ∃ text ∈ texts, char ∈ text := by
  induction texts with
  | nil => cases member
  | cons text others ih =>
      cases others with
      | nil => exact .inr ⟨text, List.mem_cons_self, by simpa using member⟩
      | cons next others =>
          rw [List.intercalate_cons_cons, List.mem_append, List.mem_append] at member
          rcases member with (here | between) | later
          · exact .inr ⟨text, List.mem_cons_self, here⟩
          · exact .inl between
          · exact (ih later).imp_right fun ⟨other, among, inside⟩ =>
              ⟨other, List.mem_cons_of_mem text among, inside⟩

/-- What precedes the clause in a signature. -/
def beforeClause (name : Text) : Text :=
  "export default function ".toList ++ (name ++ "__AstroComponent_".toList)

/-- What follows the clause in a signature. -/
def afterClause (props : Props) : Text :=
  "(_props: ".toList ++ props.parameterType ++ "): any \x7b\x7d\n".toList

theorem signature_eq (name : Text) (props : Props) :
    Tsx.signature name props =
      beforeClause name ++ (props.declarationClause ++ afterClause props) := by
  have grouped (first second third raw fourth fifth last : Text) :
      first ++ second ++ third ++ raw ++ fourth ++ fifth ++ last =
        first ++ (second ++ third) ++ (raw ++ (fourth ++ fifth ++ last)) := by
    simp
  exact grouped _ _ _ _ _ _ _

theorem endsNoRegex_afterClause {source : Text} {tokens : List Token} {clause : GenericClause}
    (slice : tokens <:+: tokenize source) (reads : extract? source tokens = some clause)
    {props : Props} (isClause : props.clause? = some clause) :
    Literal.EndsNoRegex (afterClause props) := by
  have noWord : continuesIdentifier '/' = false := by decide
  have slash {text : Text} (isWord : text.isWord) : '/' ∉ text := fun member =>
    Bool.false_ne_true (noWord.symm.trans (Text.continuesIdentifier_of_mem isWord member))
  have append {first second : Text} (noFirst : '/' ∉ first) (noSecond : '/' ∉ second) :
      '/' ∉ first ++ second := fun member =>
    (List.mem_append.mp member).elim noFirst noSecond
  have params : '/' ∉ (", ".toList).intercalate clause.params := fun member =>
    (mem_intercalate member).elim (fun between => absurd between (by decide))
      fun ⟨_, isParam, inside⟩ => slash (isWord_of_mem_params slice reads isParam) inside
  have expression : '/' ∉ props.typeExpression := by
    unfold Props.typeExpression
    split <;> decide
  have usage : '/' ∉ (props.clause?.map GenericClause.usage).getD [] := by
    rw [isClause]
    exact append (append (by decide) params) (by decide)
  exact Literal.endsNoRegex_of_notMem
    (append (append (by decide) (append expression usage)) (by decide))

/-- The words of a signature before the clause, of which the last is the name of the function. -/
def wordsBeforeClause (name : Text) : List Token :=
  [⟨.identifier, 0, "export".toList⟩, ⟨.identifier, 7, "default".toList⟩,
    ⟨.identifier, 15, "function".toList⟩,
    ⟨.identifier, 24, name ++ "__AstroComponent_".toList⟩]

theorem tokenize_beforeClause {name : Text}
    (isWord : (name ++ "__AstroComponent_".toList).isWord) (rest : Text) :
    ∃ operandExpected, tokenize (beforeClause name ++ '<' :: rest) = wordsBeforeClause name ++
      tokensFrom (beforeClause name).byteLength operandExpected ('<' :: rest) := by
  have step (text : Text) (isWord : text.isWord) (expected : Bool) {start stop : Nat}
      (place : start + text.byteLength + 1 = stop) (rest : Text) :
      ∃ expectedAfter, tokensFrom start expected (text ++ ' ' :: rest) =
        ⟨.identifier, start, text⟩ :: tokensFrom stop expectedAfter rest := by
    have ends : ∀ next ∈ List.head? (' ' :: rest), ¬ continuesIdentifier next := by
      rintro _ ⟨⟩
      decide
    obtain ⟨expectedAfter, lexed⟩ := tokensFrom_word isWord ends start expected
    rw [tokensFrom_blank (by decide), show Char.utf8Size ' ' = 1 from rfl, place] at lexed
    exact ⟨expectedAfter, lexed⟩
  have text (word : Text) : "export default function ".toList ++ word ++ '<' :: rest =
      "export".toList ++ ' ' :: ("default".toList ++ ' ' :: ("function".toList ++ ' ' ::
        (word ++ '<' :: rest))) := by
    simp
  have place : (beforeClause name).byteLength =
      24 + Text.byteLength (name ++ "__AstroComponent_".toList) :=
    Text.byteLength_append "export default function ".toList _
  have ends : ∀ next ∈ List.head? ('<' :: rest), ¬ continuesIdentifier next := by
    rintro _ ⟨⟩
    decide
  obtain ⟨_, first⟩ := step "export".toList (by decide) true (rfl : 0 + 6 + 1 = 7)
    ("default".toList ++ ' ' :: ("function".toList ++ ' ' ::
      (name ++ "__AstroComponent_".toList ++ '<' :: rest)))
  obtain ⟨_, second⟩ := step "default".toList (by decide) _ (rfl : 7 + 7 + 1 = 15)
    ("function".toList ++ ' ' :: (name ++ "__AstroComponent_".toList ++ '<' :: rest))
  obtain ⟨_, third⟩ := step "function".toList (by decide) _ (rfl : 15 + 8 + 1 = 24)
    (name ++ "__AstroComponent_".toList ++ '<' :: rest)
  obtain ⟨operandExpected, last⟩ := tokensFrom_word isWord ends 24 _
  refine ⟨operandExpected, (congrArg tokenize (text _)).trans ?_⟩
  rw [tokenize, first, second, third, last, place]
  rfl

/--
**A clause stands on its own.**  Its text begins and ends with the angle brackets, and read by
itself it is the same clause, with the same tokens.  In the signature of a component, whatever file
that is named after, the words of the signature are followed by the tokens of the clause, again with
the same text and the same parameters.
-/
theorem extract?_raw {source : Text} {tokens : List Token} {clause : GenericClause}
    (slice : tokens <:+: tokenize source) (reads : extract? source tokens = some clause) :
    (clause.raw <:+: source ∧ clause.raw.head? = some '<' ∧ clause.raw.getLast? = some '>') ∧
    (extract? clause.raw (tokenize clause.raw) = some clause ∧
      contents? (tokenize clause.raw) = contents? tokens) ∧
    ∀ (filename : Option Text) (props : Props), props.clause? = some clause →
      let name := (filename.map ComponentName.ofPath).getD []
      ∃ spliced,
        tokenize (Tsx.signature name props) =
          wordsBeforeClause name ++ spliced ∧
        extract? (Tsx.signature name props) spliced = some clause ∧
        contents? spliced = contents? tokens := by
  obtain ⟨part, middle, ends⟩ := exists_raw_of_extract? slice reads
  refine ⟨⟨part, by rw [ends]; rfl, by rw [ends, List.getLast?_concat]⟩, ?_, ?_⟩
  · have alone := extract?_raw_append slice reads [] true Literal.endsNoRegex_nil
    rw [List.append_nil, List.nil_append] at alone
    exact alone
  · intro filename props isClause name
    have isWord : (name ++ "__AstroComponent_".toList).isWord := by
      cases filename with
      | none => decide
      | some path => exact ComponentName.isWord_ofPath_append path
    obtain ⟨operandExpected, lexed⟩ := tokenize_beforeClause isWord
      (middle ++ ['>'] ++ afterClause props)
    have bracket : '<' :: (middle ++ ['>'] ++ afterClause props) =
        clause.raw ++ afterClause props := by
      rw [ends, List.cons_append, List.cons_append]
    have spliced := extract?_raw_append slice reads (beforeClause name) operandExpected
      (endsNoRegex_afterClause slice reads isClause)
    have isRaw : props.declarationClause = clause.raw := by
      rw [Props.declarationClause, isClause]
      rfl
    rw [bracket] at lexed
    rw [signature_eq, isRaw]
    exact ⟨_, lexed, spliced⟩

/-- A slash stays a division without the slash that follows the clause in the source. -/
theorem extract?_raw_division :
    let source : Text := "interface Props<A extends 1 / 2, B = () => '>'> \x7b a: A / B \x7d".toList
    let tokens := (tokenize source).drop 2
    let clause : GenericClause :=
      ⟨"<A extends 1 / 2, B = () => '>'>".toList, ["A".toList, "B".toList]⟩
    (tokens <:+: tokenize source ∧ extract? source tokens = some clause) ∧
    (clause.raw <:+: source ∧ clause.raw.head? = some '<' ∧ clause.raw.getLast? = some '>') ∧
    (extract? clause.raw (tokenize clause.raw) = some clause ∧
      contents? (tokenize clause.raw) = contents? tokens) ∧
    ∀ (filename : Option Text) (props : Props), props.clause? = some clause →
      let name := (filename.map ComponentName.ofPath).getD []
      ∃ spliced,
        tokenize (Tsx.signature name props) = wordsBeforeClause name ++ spliced ∧
        extract? (Tsx.signature name props) spliced = some clause ∧
        contents? spliced = contents? tokens := by
  intro source tokens clause
  have slice : tokens <:+: tokenize source := (List.drop_suffix 2 _).isInfix
  have reads : extract? source tokens = some clause := by decide +kernel
  exact ⟨⟨slice, reads⟩, extract?_raw slice reads⟩

end GenericClause

end ComponentTsx
