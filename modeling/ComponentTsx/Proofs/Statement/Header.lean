import ComponentTsx.Proofs.GenericClause.TypeList
import ComponentTsx.Proofs.Statement.Braces
import ComponentTsx.Proofs.Statement.Spelling

/-!
# Headers on several lines

The header of a declaration is a row of words, equals signs and lists of types,
each behind a gap (`HeaderPart`, `PlacedPart`).  No statement ends in a part.  At
a line break in a gap the statement goes on if the part before it or the part
after it says so, and then the header is the beginning of one statement
(`exists_splitFrom_header`).

A body in braces comes last.  If the header goes on to it, header and body are
one statement (`exists_split_header`).  A list of types is no part that a line
may begin with, so that a header may end at a line break before one
(`exists_split_header_list`).
-/

namespace ComponentTsx

set_option autoImplicit false

open Statement

/-! ## Parts -/

/-- A part of the header of a declaration. -/
inductive HeaderPart where
  | word (text : Text) (isWord : text.isWord)
  | equals
  | list (types : TypeList)

namespace HeaderPart

def text : HeaderPart → Text
  | word text _ => text
  | equals => ['=']
  | list types => types.text

/-- The tokens of the part at a byte offset, without comments. -/
def tokensAt (start : Nat) : HeaderPart → List Token
  | word text _ => [⟨.identifier, start, text⟩]
  | equals => [⟨.equals, start, ['=']⟩]
  | list types => types.tokensAt start

/-- Whether a line that ends with the part goes on with the next line. -/
def continuesAfter : HeaderPart → Bool
  | word text _ => Statement.continuesAfter ⟨.identifier, 0, text⟩
  | equals => true
  | list _ => false

/-- Whether a line that begins with the part goes on from the line before. -/
def continuesBefore : HeaderPart → Bool
  | word text _ => Statement.continuesBefore ⟨.identifier, 0, text⟩
  | equals => true
  | list _ => false

variable (part : HeaderPart) (start : Nat)

theorem exists_filter_tokensFrom {rest : Text} (apart : StandsApart rest)
    (operandExpected : Bool) :
    ∃ expectedAfter,
      (tokensFrom start operandExpected (part.text ++ rest)).filter (!·.kind.isTrivia) =
        part.tokensAt start ++
          (tokensFrom (start + part.text.byteLength) expectedAfter rest).filter
            (!·.kind.isTrivia) := by
  cases part with
  | word text isWord =>
      obtain ⟨expectedAfter, lexed⟩ := tokensFrom_word isWord (fun char isNext =>
        (apart char isNext).1) start operandExpected
      refine ⟨expectedAfter, ?_⟩
      rw [HeaderPart.text, lexed]
      rfl
  | equals =>
      have read : readToken operandExpected '=' rest = (.equals, 0) := by
        cases rest with
        | nil => rfl
        | cons next rest =>
            have noArrow := (apart next rfl).2
            simp [readToken, noArrow]
      refine ⟨true, ?_⟩
      rw [HeaderPart.text, List.singleton_append, tokensFrom_token (by decide) read]
      rfl
  | list types => exact ⟨true, types.filter_tokensFrom_append start operandExpected rest⟩

theorem significant_tokensAt : significant (part.tokensAt start) = part.tokensAt start := by
  cases part with
  | word text isWord => rfl
  | equals => rfl
  | list types => exact types.significant_tokensAt start

/-- The splitter goes on behind a part. -/
theorem splitFrom_tokensAt (pending rest : List Token) :
    splitFrom 0 pending (part.tokensAt start ++ rest) =
      splitFrom 0 ((part.tokensAt start).reverse ++ pending) rest := by
  cases part with
  | word text isWord => exact splitFrom_cons_of_uncut TokenKind.noConfusion rfl
  | equals => exact splitFrom_cons_of_uncut TokenKind.noConfusion rfl
  | list types => exact types.splitFrom_tokensAt start pending rest

/-- No body begins in a part. -/
theorem opensBody_tokensAt (rest : List Token) :
    opensBody 0 (part.tokensAt start ++ rest) = opensBody 0 rest := by
  cases part with
  | word text isWord => rfl
  | equals => rfl
  | list types => exact types.opensBody_tokensAt start rest

variable {part}

theorem continuesAcross_of_continuesAfter (continues : part.continuesAfter)
    (pending rest : List Token) :
    continuesAcross ((part.tokensAt start).reverse ++ pending) rest := by
  cases part with
  | word text isWord =>
      have here : Statement.continuesAfter ⟨.identifier, start, text⟩ := continues
      simp [continuesAcross, tokensAt, isLineBreak, here]
  | equals => rfl
  | list types => cases continues

theorem continuesAcross_of_continuesBefore (continues : part.continuesBefore)
    (pending rest : List Token) : continuesAcross pending (part.tokensAt start ++ rest) := by
  cases part with
  | word text isWord =>
      have here : Statement.continuesBefore ⟨.identifier, start, text⟩ := continues
      simp [continuesAcross, tokensAt, isLineBreak, here]
  | equals => simp [continuesAcross, tokensAt, isLineBreak, Statement.continuesBefore]
  | list types => cases continues

end HeaderPart

/-! ## Rows of parts -/

/-- A part behind a gap. -/
structure PlacedPart where
  gap : Text
  part : HeaderPart
  isGap : IsGap True gap

def headerText : List PlacedPart → Text
  | [] => []
  | placed :: rest => placed.gap ++ (placed.part.text ++ headerText rest)

/-- The tokens of a header at a byte offset, without comments and line breaks. -/
def headerTokens (start : Nat) : List PlacedPart → List Token
  | [] => []
  | placed :: rest =>
      placed.part.tokensAt (start + placed.gap.byteLength) ++
        headerTokens (start + placed.gap.byteLength + placed.part.text.byteLength) rest

theorem headerText_append (front back : List PlacedPart) :
    headerText (front ++ back) = headerText front ++ headerText back := by
  induction front with
  | nil => rfl
  | cons placed front ih =>
      rw [List.cons_append, headerText, ih, headerText, List.append_assoc, List.append_assoc]

theorem headerTokens_append (start : Nat) (front back : List PlacedPart) :
    headerTokens start (front ++ back) =
      headerTokens start front ++ headerTokens (start + (headerText front).byteLength) back := by
  induction front generalizing start with
  | nil => rfl
  | cons placed front ih =>
      simp only [List.cons_append, headerTokens, ih, headerText, Text.byteLength_append,
        List.append_assoc, Nat.add_assoc]

theorem significant_headerTokens (start : Nat) (parts : List PlacedPart) :
    significant (headerTokens start parts) = headerTokens start parts := by
  induction parts generalizing start with
  | nil => rfl
  | cons placed parts ih =>
      rw [headerTokens, significant_append, HeaderPart.significant_tokensAt, ih]

/-- No body begins in a header. -/
theorem opensBody_headerTokens (start : Nat) (parts : List PlacedPart) :
    opensBody 0 (headerTokens start parts) = false := by
  induction parts generalizing start with
  | nil => rfl
  | cons placed parts ih => rw [headerTokens, HeaderPart.opensBody_tokensAt, ih]

/-- Neighbours in one statement: a gap may be missing before a list only, and a line break between
the two is one that the statement goes on after. -/
@[mk_iff] structure PlacedPart.Joins (earlier later : PlacedPart) : Prop where
  apart : later.gap = [] → ∃ types, later.part = .list types
  across : IsGap False later.gap ∨ earlier.part.continuesAfter ∨ later.part.continuesBefore

namespace PlacedPart

variable {parts : List PlacedPart} {rest : Text}

/-- What follows a part stands apart from it. -/
theorem standsApart_headerText {placed : PlacedPart} (chain : (placed :: parts).IsChain Joins)
    (apart : StandsApart rest) : StandsApart (headerText parts ++ rest) := by
  cases parts with
  | nil => exact apart
  | cons next parts =>
      have joins := (List.isChain_cons_cons.mp chain).1
      rw [headerText, List.append_assoc, List.append_assoc]
      by_cases missing : next.gap = []
      · obtain ⟨types, isList⟩ := joins.apart missing
        rw [missing, isList]
        rintro _ ⟨⟩
        decide
      · exact next.isGap.standsApart missing _

/-- **A header is read as the beginning of one statement** if its parts join. -/
theorem exists_splitFrom_header (chain : parts.IsChain Joins) (apart : StandsApart rest)
    (start : Nat) (operandExpected : Bool) (pending : List Token)
    (first : ∀ placed ∈ parts.head?, IsGap False placed.gap ∨
      ∀ start rest, continuesAcross pending (placed.part.tokensAt start ++ rest)) :
    ∃ expectedAfter after,
      significant after = (headerTokens start parts).reverse ++ significant pending ∧
      splitFrom 0 pending
          ((tokensFrom start operandExpected (headerText parts ++ rest)).filter
            (!·.kind.isTrivia)) =
        splitFrom 0 after
          ((tokensFrom (start + (headerText parts).byteLength) expectedAfter rest).filter
            (!·.kind.isTrivia)) := by
  induction parts generalizing start operandExpected pending with
  | nil => exact ⟨operandExpected, pending, rfl, rfl⟩
  | cons placed parts ih =>
      obtain ⟨breaks, expectedThere, lexedGap, areBreaks, _, onLine⟩ :=
        exists_breaks_of_isGap placed.isGap start operandExpected
          (placed.part.text ++ (headerText parts ++ rest))
      obtain ⟨expectedLater, lexedPart⟩ := placed.part.exists_filter_tokensFrom
        (start + placed.gap.byteLength) (standsApart_headerText chain apart) expectedThere
      have goesOn (more : List Token) (nonempty : breaks ≠ []) : 0 < 0 ∨ continuesAcross pending
          (placed.part.tokensAt (start + placed.gap.byteLength) ++ more) := by
        rcases first placed rfl with sameLine | across
        · exact absurd (onLine.mpr sameLine) nonempty
        · exact .inr (across _ more)
      obtain ⟨expectedAfter, after, same, later⟩ := ih chain.tail
        (start + placed.gap.byteLength + placed.part.text.byteLength) expectedLater
        ((placed.part.tokensAt (start + placed.gap.byteLength)).reverse ++
          (breaks.reverse ++ pending)) fun next isNext => by
        obtain ⟨more, rfl⟩ := List.head?_eq_some_iff.mp isNext
        rcases (List.isChain_cons_cons.mp chain).1.across with sameLine | continues | continues
        · exact .inl sameLine
        · exact .inr fun _ _ => HeaderPart.continuesAcross_of_continuesAfter _ continues _ _
        · exact .inr fun _ _ => HeaderPart.continuesAcross_of_continuesBefore _ continues _ _
      have areBefore : ∀ token ∈ breaks.reverse, isLineBreak token :=
        fun token member => areBreaks token (List.mem_reverse.mp member)
      refine ⟨expectedAfter, after, ?_, ?_⟩
      · rw [same, headerTokens, significant_append, significant_append, significant_reverse,
          HeaderPart.significant_tokensAt, significant_of_breaks areBefore, List.reverse_append,
          List.append_assoc, List.nil_append]
      · rw [headerText, List.append_assoc, List.append_assoc, lexedGap, lexedPart,
          splitFrom_append_breaks areBreaks (goesOn _), HeaderPart.splitFrom_tokensAt, later,
          Text.byteLength_append, Text.byteLength_append, Nat.add_assoc, Nat.add_assoc]

end PlacedPart

/-! ## Bodies -/

/-- A body in braces, at the end of a text. -/
structure BracedBody where
  /-- The text between the braces. -/
  middle : Text
  /-- The tokens between the braces. -/
  inside : List Token
  reads : tokenize ('{' :: (middle ++ ['}'])) =
    ⟨.opening .brace, 0, ['{']⟩ :: (inside ++
      [⟨.closing .brace, 1 + middle.byteLength, ['}']⟩, ⟨.endOfFile, 2 + middle.byteLength, []⟩])
  level : IsLevel counted inside

namespace BracedBody

def text (body : BracedBody) : Text := '{' :: (body.middle ++ ['}'])

/-- The tokens of a body at a byte offset, without comments. -/
def tokensAt (body : BracedBody) (start : Nat) : List Token :=
  ⟨.opening .brace, start, ['{']⟩ :: (Token.codeAt start body.inside ++
    [⟨.closing .brace, start + (1 + body.middle.byteLength), ['}']⟩])

variable (body : BracedBody) (start : Nat)

theorem byteLength_text : body.text.byteLength = 2 + body.middle.byteLength := by
  have size (mark : Char) (isMark : mark = '{' ∨ mark = '}') : mark.utf8Size = 1 := by
    rcases isMark with rfl | rfl <;> rfl
  simp [text, size]
  omega

theorem filter_tokensFrom (operandExpected : Bool) :
    (tokensFrom start operandExpected body.text).filter (!·.kind.isTrivia) =
      body.tokensAt start ++ [⟨.endOfFile, start + body.text.byteLength, []⟩] := by
  have opening (operandExpected : Bool) :
      tokensFrom start operandExpected body.text = ⟨.opening .brace, start, ['{']⟩ ::
        tokensFrom (start + 1) true (body.middle ++ ['}']) :=
    tokensFrom_token (by decide) rfl start
  have same : tokensFrom start operandExpected body.text =
      tokensFrom (0 + start) true body.text := by
    rw [Nat.zero_add, opening, opening]
  have reads : tokensFrom 0 true body.text = ⟨.opening .brace, 0, ['{']⟩ :: (body.inside ++
      [⟨.closing .brace, 1 + body.middle.byteLength, ['}']⟩]) ++
        [⟨.endOfFile, 2 + body.middle.byteLength, []⟩] := by
    rw [List.cons_append, List.append_assoc]
    exact body.reads
  have moved : Token.codeAt start (⟨.opening .brace, 0, ['{']⟩ :: (body.inside ++
      [⟨.closing .brace, 1 + body.middle.byteLength, ['}']⟩])) = body.tokensAt start := by
    rw [Token.codeAt_enclosed rfl rfl, tokensAt]
    simp [Token.shift, Nat.add_comm]
  rw [same, tokensFrom_add, reads, List.map_append, List.filter_append, Token.filter_map_shift,
    moved, byteLength_text, Nat.add_comm start]
  rfl

theorem ne_endOfFile_inside : ∀ token ∈ Token.codeAt start body.inside, token.kind ≠ .endOfFile := by
  intro token member
  obtain ⟨own, isOwn, rfl⟩ := List.mem_map.mp member
  have inside := (List.mem_filter.mp isOwn).1
  have tiles := tiles_tokensFrom 0 true body.text
  refine tiles.ne_endOfFile_of_mem_dropLast own ?_
  have reads : tokensFrom 0 true body.text = _ := body.reads
  rw [reads, List.dropLast_cons_of_ne_nil (by simp), List.dropLast_append_of_ne_nil (by simp)]
  exact List.mem_cons_of_mem _ (List.mem_append_left _ inside)

/-- The last token of a body ends with its text. -/
theorem exists_getLast?_tokensAt : ∃ last,
    (significant (body.tokensAt start)).getLast? = some last ∧
      last.stop = start + body.text.byteLength := by
  have size : Text.byteLength ['}'] = 1 := rfl
  refine ⟨⟨.closing .brace, start + (1 + body.middle.byteLength), ['}']⟩, ?_, ?_⟩
  · rw [tokensAt, ← List.cons_append, significant_append]
    exact List.getLast?_concat
  · simp only [Token.stop, byteLength_text, size]
    omega

/-- A body behind a header ends the statement with the text. -/
theorem splitFrom_tokensAt (pending : List Token) (stop : Nat) :
    splitFrom 0 pending (body.tokensAt start ++ [⟨.endOfFile, stop, []⟩]) =
      [⟨pending.reverse ++ body.tokensAt start, [⟨.endOfFile, stop, []⟩]⟩] := by
  have level : IsLevel counted (Token.codeAt start body.inside) := by
    refine (body.level.filter fun token dropped => ?_).map (Token.relocates_shift start).toKeepsWords
    have isTrivia := (Bool.not_eq_false' _).mp dropped
    cases kind : token.kind <;> simp_all [isOpening, isClosing, TokenKind.isTrivia]
  have goesOn : endsWith 0 ⟨.closing .brace, start + (1 + body.middle.byteLength), ['}']⟩
      [⟨.endOfFile, stop, []⟩] = false := rfl
  rw [tokensAt, List.cons_append, List.append_assoc, splitFrom_opening rfl,
    level.splitFrom_append (body.ne_endOfFile_inside start), List.singleton_append,
    splitFrom_closing rfl, goesOn, if_neg Bool.false_ne_true]
  simp [splitFrom]

end BracedBody

/-! ## Whole statements -/

/-- **A header and a body are one statement** if the header goes on to the body. -/
theorem exists_split_header {parts : List PlacedPart} (chain : parts.IsChain PlacedPart.Joins)
    (first : ∀ placed ∈ parts.head?, IsGap False placed.gap) {gap : Text} (isGap : IsGap True gap)
    (nonempty : gap ≠ []) (body : BracedBody)
    (across : ∀ start rest,
      continuesAcross (headerTokens 0 parts).reverse (body.tokensAt start ++ rest)) :
    ∃ tokens stop,
      split ((tokenize (headerText parts ++ (gap ++ body.text))).filter (!·.kind.isTrivia)) =
        [⟨tokens, [⟨.endOfFile, stop, []⟩]⟩] ∧
      significant tokens = headerTokens 0 parts ++
        significant (body.tokensAt ((headerText parts).byteLength + gap.byteLength)) := by
  obtain ⟨expectedHere, after, same, upToHere⟩ := PlacedPart.exists_splitFrom_header chain
    (isGap.standsApart nonempty body.text) 0 true [] fun placed isFirst =>
      .inl (first placed isFirst)
  rw [Nat.zero_add] at upToHere
  obtain ⟨breaks, expectedThere, lexedGap, areBreaks, _⟩ :=
    exists_breaks_of_isGap isGap (headerText parts).byteLength expectedHere body.text
  have sameHeader : significant after = significant (headerTokens 0 parts).reverse := by
    rw [same, significant_reverse, significant_headerTokens]
    exact List.append_nil _
  have goesOn (rest : List Token) (_ : breaks ≠ []) : 0 < 0 ∨ continuesAcross after
      (body.tokensAt ((headerText parts).byteLength + gap.byteLength) ++ rest) := by
    rw [continuesAcross_congr sameHeader]
    exact .inr (across _ rest)
  rw [split, tokenize, upToHere, lexedGap, body.filter_tokensFrom,
    splitFrom_append_breaks areBreaks (goesOn _), body.splitFrom_tokensAt]
  refine ⟨_, _, rfl, ?_⟩
  rw [significant_append, List.reverse_append, List.reverse_reverse, significant_append,
    significant_of_breaks areBreaks, List.append_nil, significant_reverse, sameHeader,
    significant_reverse, List.reverse_reverse, significant_headerTokens]

/-- A header ends at a line break before a list if it does not go on to the list. -/
theorem exists_split_header_list {parts : List PlacedPart}
    (chain : parts.IsChain PlacedPart.Joins)
    (first : ∀ placed ∈ parts.head?, IsGap False placed.gap) {gap : Text} (isGap : IsGap True gap)
    (breaks : ¬ IsGap False gap) (types : TypeList)
    (ends : ∀ start rest,
      continuesAcross (headerTokens 0 parts).reverse (types.tokensAt start ++ rest) = false)
    (rest : Text) :
    ∃ tokens following others,
      split ((tokenize (headerText parts ++ (gap ++ (types.text ++ rest)))).filter
        (!·.kind.isTrivia)) = ⟨tokens, following⟩ :: others ∧
      significant tokens = headerTokens 0 parts := by
  have nonempty : gap ≠ [] := by
    rintro rfl
    exact breaks .nil
  obtain ⟨expectedHere, after, same, upToHere⟩ := PlacedPart.exists_splitFrom_header chain
    (isGap.standsApart nonempty (types.text ++ rest)) 0 true [] fun placed isFirst =>
      .inl (first placed isFirst)
  obtain ⟨lines, expectedThere, lexedGap, areBreaks, _, onLine⟩ := exists_breaks_of_isGap isGap
    (0 + (headerText parts).byteLength) expectedHere (types.text ++ rest)
  obtain ⟨line, more, rfl⟩ := List.exists_cons_of_ne_nil fun none => breaks (onLine.mp none)
  obtain ⟨isBreak, areBreaks⟩ := List.forall_mem_cons.mp areBreaks
  have sameHeader : significant after = significant (headerTokens 0 parts).reverse := by
    rw [same, significant_reverse, significant_headerTokens]
    exact List.append_nil _
  have ended (start : Nat) (later : List Token) :
      continuesAcross after (more ++ (types.tokensAt start ++ later)) = false := by
    rw [continuesAcross_append_breaks areBreaks, continuesAcross_congr sameHeader, ends]
  have upToGap := upToHere.trans (congrArg (splitFrom 0 after)
    (lexedGap.trans (congrArg (line :: more ++ ·) (types.filter_tokensFrom_append _ _ rest))))
  refine ⟨after.reverse, _, _, upToGap.trans (splitFrom_cons_of_break isBreak (ended _ _)), ?_⟩
  rw [significant_reverse, sameHeader, significant_reverse, List.reverse_reverse,
    significant_headerTokens]

end ComponentTsx
