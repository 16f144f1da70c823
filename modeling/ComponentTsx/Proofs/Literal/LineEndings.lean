import ComponentTsx.Proofs.Text.LineEndings
import ComponentTsx.Proofs.Token.Ending

/-!
# Lengths in a text with carriage returns

A comment, a string, a template or a number ends at the same place whether its
lines end with line feeds alone or with carriage returns before them
(`SamePlace`), and so does a regular expression, if it stays one
(`regexLength?_crlf`).  A comment or a string that ends at a line feed takes the
carriage return as well, and the line feed is left in either case.

A string in a substitution is the exception.  A backslash in it hides one
character only, so it hides a line feed, but not one behind a carriage return
(`samePlace_nestedQuoted`); a template keeps its place if it has no such strings
(`enclosedLength_crlf`).
-/

namespace ComponentTsx.Literal

set_option autoImplicit false

open Text

/-! ## Strings and line comments -/

/-- How a length in a text goes with one in the text with carriage returns. -/
inductive SamePlace (text : Text) (length other : Nat) : Prop where
  /-- Both end at the same place. -/
  | same (isLength : other = (crlf (text.take length)).length)
  /-- The first one ends at a line feed, and the second one takes the carriage return before it. -/
  | atBreak (more : Text) (stops : text.drop length = '\n' :: more)
      (isLength : other = (crlf (text.take length)).length + 1)

namespace SamePlace

variable {rest : Text} {length other : Nat}

theorem zero (text : Text) : SamePlace text 0 0 := .same rfl

theorem append (place : SamePlace rest length other) (part : Text) :
    SamePlace (part ++ rest) (length + part.length) (other + (crlf part).length) := by
  rw [Nat.add_comm length]
  cases place with
  | same isLength =>
      refine .same ?_
      rw [List.take_length_add_append, crlf_append, List.length_append, isLength, Nat.add_comm]
  | atBreak more stops isLength =>
      refine .atBreak more (by rw [List.drop_length_add_append, stops]) ?_
      rw [List.take_length_add_append, crlf_append, List.length_append, isLength]
      omega

theorem cons (place : SamePlace rest length other) {char : Char} (noBreak : char ≠ '\n') :
    SamePlace (char :: rest) (length + 1) (other + 1) := by
  have appended := place.append [char]
  rwa [crlf_cons noBreak] at appended

end SamePlace

/-- What is taken of the text with carriage returns is the changed text, but for one at its end. -/
theorem SamePlace.take_crlf {text : Text} {length other : Nat}
    (place : SamePlace text length other) :
    (crlf text).take other = crlf (text.take length) ∨
      (crlf text).take other = crlf (text.take length) ++ ['\r'] := by
  cases place with
  | same isLength => exact .inl (isLength ▸ Text.take_crlf text length)
  | atBreak more stops isLength =>
      refine .inr ?_
      rw [isLength, List.take_add, Text.take_crlf, drop_crlf, stops, crlf_break]
      rfl

theorem samePlace_lineComment (text : Text) :
    SamePlace text (lineCommentLength text) (lineCommentLength (crlf text)) := by
  induction text with
  | nil => exact .zero []
  | cons char rest ih =>
      by_cases isBreak : char = '\n'
      · subst isBreak
        exact .atBreak rest (by simp [lineCommentLength]) (by simp [lineCommentLength])
      · have step (later : Text) :
            lineCommentLength (char :: later) = lineCommentLength later + 1 := by
          simp [lineCommentLength, isBreak]
        rw [crlf_cons isBreak, step, step]
        exact ih.cons isBreak

/-- Characters that neither end a string nor hide a character of it. -/
def IsPlain (body : Text) : Prop :=
  ∀ char ∈ body, char ≠ '\\' ∧ char ≠ '\n' ∧ char ≠ '\'' ∧ char ≠ '"'

theorem IsPlain.crlf_eq {body : Text} (plain : IsPlain body) : crlf body = body :=
  crlf_of_notMem fun isBreak => (plain _ isBreak).2.1 rfl

theorem IsPlain.ne_quote {body : Text} (plain : IsPlain body) {quote : Char}
    (isQuote : quote = '\'' ∨ quote = '"') :
    ∀ char ∈ body, char ≠ '\\' ∧ char ≠ '\n' ∧ char ≠ quote := by
  intro char member
  obtain ⟨noEscape, noBreak, noQuote⟩ := plain char member
  refine ⟨noEscape, noBreak, ?_⟩
  rcases isQuote with rfl | rfl
  · exact noQuote.1
  · exact noQuote.2

/-- A string in which nothing is hidden ends with its first quote. -/
theorem quotedLength_closed {quote : Char} (isQuote : quote = '\'' ∨ quote = '"') {body : Text}
    (inside : ∀ char ∈ body, char ≠ '\\' ∧ char ≠ '\n' ∧ char ≠ quote) (more : Text) :
    quotedLength quote (body ++ [quote] ++ more) = (body ++ [quote]).length := by
  induction body with
  | nil =>
      have quoteIs : quote ≠ '\\' ∧ quote ≠ '\n' := by
        rcases isQuote with rfl | rfl <;> decide
      exact (quotedLength_char quoteIs.1 quoteIs.2 more).trans (if_pos rfl)
  | cons char rest ih =>
      obtain ⟨⟨noEscape, noBreak, noQuote⟩, later⟩ := List.forall_mem_cons.mp inside
      rw [List.cons_append, List.cons_append, quotedLength_char noEscape noBreak, if_neg noQuote,
        ih later]
      rfl

theorem samePlace_quoted {quote : Char} (isQuote : quote = '\'' ∨ quote = '"') {text : Text}
    (noReturn : '\r' ∉ text) :
    SamePlace text (quotedLength quote text) (quotedLength quote (crlf text)) := by
  have quoteIs : quote ≠ '\\' ∧ quote ≠ '\n' ∧ quote ≠ '\r' := by
    rcases isQuote with rfl | rfl <;> decide
  fun_induction quotedLength quote text with
  | case1 => exact .zero []
  | case2 hidden rest => simp at noReturn
  | case3 hidden rest noEscapedReturn ih =>
      simp only [List.mem_cons, not_or] at noReturn
      by_cases isBreak : hidden = '\n'
      · subst isBreak
        have both : quotedLength quote (crlf ('\\' :: '\n' :: rest)) =
            quotedLength quote (crlf rest) + 3 := by
          rw [crlf_cons (by decide), crlf_break, quotedLength]
        rw [both]
        exact (ih noReturn.2.2).append ['\\', '\n']
      · have both : quotedLength quote (crlf ('\\' :: hidden :: rest)) =
            quotedLength quote (crlf rest) + 2 := by
          rw [crlf_cons (by decide), crlf_cons isBreak, quotedLength]
          simp [Ne.symm noReturn.2.1]
        rw [both]
        exact ((ih noReturn.2.2).cons isBreak).cons (by decide)
  | case4 rest =>
      refine .atBreak rest rfl ?_
      rw [crlf_break, quotedLength_char (by decide) (by decide), if_neg (Ne.symm quoteIs.2.2)]
      rfl
  | case5 rest noReturn' noEscape noBreak =>
      rw [crlf_cons quoteIs.2.1, quotedLength_char quoteIs.1 quoteIs.2.1, if_pos rfl]
      exact (SamePlace.zero rest).cons quoteIs.2.1
  | case6 char rest noReturn' noEscape noBreak noQuote ih =>
      simp only [List.mem_cons, not_or] at noReturn
      have goesOn : char ≠ '\n' := fun isBreak => noBreak isBreak
      by_cases isEscape : char = '\\'
      · cases rest with
        | nil =>
            have one : quotedLength quote (crlf ['\\']) = 1 := by
              simp [isEscape ▸ noQuote, quotedLength, crlf]
            rw [isEscape, one]
            exact (SamePlace.zero []).cons (by decide)
        | cons hidden rest => exact absurd rfl (noEscape hidden rest isEscape)
      · rw [crlf_cons goesOn, quotedLength_char isEscape goesOn, if_neg noQuote]
        exact (ih noReturn.2).cons goesOn

/-- A string in a substitution ends at the same place if no line feed is hidden in it. -/
theorem samePlace_nestedQuoted {quote : Char} (isQuote : quote = '\'' ∨ quote = '"') {text : Text}
    (noReturn : '\r' ∉ text) (noBreak : '\n' ∉ text.take (nestedQuotedLength quote text)) :
    SamePlace text (nestedQuotedLength quote text) (nestedQuotedLength quote (crlf text)) := by
  have quoteIs : quote ≠ '\\' ∧ quote ≠ '\n' ∧ quote ≠ '\r' := by
    rcases isQuote with rfl | rfl <;> decide
  fun_induction nestedQuotedLength quote text with
  | case1 => exact .zero []
  | case2 hidden rest ih =>
      simp only [List.mem_cons, not_or, List.take_succ_cons] at noReturn noBreak
      have goesOn : hidden ≠ '\n' := Ne.symm noBreak.2.1
      have both : nestedQuotedLength quote (crlf ('\\' :: hidden :: rest)) =
          nestedQuotedLength quote (crlf rest) + 2 := by
        rw [crlf_cons (by decide), crlf_cons goesOn, nestedQuotedLength]
      rw [both]
      exact ((ih noReturn.2.2 noBreak.2.2).cons goesOn).cons (by decide)
  | case3 rest =>
      refine .atBreak rest rfl ?_
      rw [crlf_break, nestedQuotedLength_char (by decide) (by decide),
        if_neg (Ne.symm quoteIs.2.2)]
      rfl
  | case4 rest noEscape noBreak' =>
      rw [crlf_cons quoteIs.2.1, nestedQuotedLength_char quoteIs.1 quoteIs.2.1, if_pos rfl]
      exact (SamePlace.zero rest).cons quoteIs.2.1
  | case5 char rest noEscape noBreak' noQuote ih =>
      simp only [List.mem_cons, not_or, List.take_succ_cons] at noReturn noBreak
      have goesOn : char ≠ '\n' := fun isBreak => noBreak' isBreak
      by_cases isEscape : char = '\\'
      · cases rest with
        | nil =>
            have one : nestedQuotedLength quote (crlf ['\\']) = 1 := by
              simp [isEscape ▸ noQuote, nestedQuotedLength, crlf]
            rw [isEscape, one]
            exact (SamePlace.zero []).cons (by decide)
        | cons hidden rest => exact absurd rfl (noEscape hidden rest isEscape)
      · rw [crlf_cons goesOn, nestedQuotedLength_char isEscape goesOn, if_neg noQuote]
        exact (ih noReturn.2 noBreak.2).cons goesOn

/-! ## Lengths that end at the same place -/

/-- A length that ends at the same place of a text with carriage returns. -/
def KeepsPlace (length : Text → Nat) : Prop :=
  ∀ text, length (crlf text) = (crlf (text.take (length text))).length

/-- A length made of a part and a length after it keeps its place if both do. -/
theorem KeepsPlace.passOver {part later : Text → Nat} (partKeeps : KeepsPlace part)
    (laterKeeps : KeepsPlace later) :
    KeepsPlace fun text => later (text.drop (part text)) + part text := by
  intro text
  simp only [partKeeps text, drop_crlf, laterKeeps (text.drop (part text))]
  rw [Nat.add_comm (later _), List.take_add, crlf_append, List.length_append, Nat.add_comm]

theorem keepsPlace_takeWhile {condition : Char → Bool} (notBreak : condition '\n' = false)
    (notReturn : condition '\r' = false) :
    KeepsPlace fun text => (text.takeWhile condition).length := by
  intro text
  induction text with
  | nil => rfl
  | cons char rest ih =>
      by_cases isBreak : char = '\n'
      · simp [isBreak, notBreak, notReturn]
      · by_cases goesOn : condition char
        · simpa [goesOn, crlf_cons isBreak] using ih
        · simp [goesOn, crlf_cons isBreak]

theorem keepsPlace_blockComment : KeepsPlace blockCommentLength := by
  intro text
  fun_induction blockCommentLength text with
  | case1 => rfl
  | case2 rest => rfl
  | case3 char rest noEnd ih =>
      rw [List.take_succ_cons]
      by_cases isBreak : char = '\n'
      · subst isBreak
        have step : blockCommentLength (crlf ('\n' :: rest)) =
            blockCommentLength (crlf rest) + 2 := by
          rw [crlf_break, blockCommentLength, blockCommentLength] <;> simp
        rw [step, ih]
        rfl
      · have step : blockCommentLength (crlf (char :: rest)) =
            blockCommentLength (crlf rest) + 1 := by
          rw [crlf_cons isBreak, blockCommentLength]
          intro tail isStar ends
          have isSlash : (crlf rest).head? = some '/' := by rw [ends, List.head?_cons]
          obtain ⟨after, rfl⟩ :=
            List.head?_eq_some_iff.mp ((head?_crlf (by decide) (by decide)).mp isSlash)
          exact noEnd after isStar rfl
        rw [step, ih, crlf_cons isBreak]
        rfl

theorem keepsPlace_fraction : KeepsPlace fractionLength := by
  intro text
  cases text with
  | nil => rfl
  | cons char rest =>
      by_cases isPoint : char = '.'
      · subst isPoint
        have inside := keepsPlace_takeWhile (show continuesNumber '\n' = false from rfl) rfl rest
        simp only [fractionLength, crlf_cons (show '.' ≠ '\n' by decide), List.take_succ_cons,
          List.length_cons] at inside ⊢
        rw [inside]
      · by_cases isBreak : char = '\n'
        · subst isBreak
          rw [crlf_break, fractionLength_of_ne (by decide), fractionLength_of_ne (by decide)]
          rfl
        · rw [crlf_cons isBreak, fractionLength_of_ne isPoint, fractionLength_of_ne isPoint]
          rfl

theorem keepsPlace_number : KeepsPlace numberLength := by
  have keeps := (keepsPlace_takeWhile (show continuesNumber '\n' = false from rfl) rfl).passOver
    keepsPlace_fraction
  simp only [KeepsPlace, ← numberLength_eq] at keeps
  exact keeps

/-! ## Regular expressions -/

/-- A regular expression stays one if no line feed is hidden in it, and else it is none. -/
theorem regexLength?_crlf (inClass : Bool) {text : Text} (noReturn : '\r' ∉ text) :
    regexLength? inClass (crlf text) = (regexLength? inClass text).bind fun length =>
      if '\n' ∈ text.take length then none else some length := by
  fun_induction regexLength? inClass text with
  | case1 inClass => simp [regexLength?]
  | case2 inClass => simp [regexLength?, crlf]
  | case3 inClass hidden rest ih =>
      simp only [List.mem_cons, not_or] at noReturn
      rw [crlf_cons (by decide), Option.bind_map]
      by_cases isBreak : hidden = '\n'
      · subst isBreak
        cases found : regexLength? inClass rest <;> simp [regexLength?]
      · rw [crlf_cons isBreak, regexLength?, ih noReturn.2.2, Option.map_bind]
        congr 1
        funext length
        simp [Ne.symm isBreak, apply_ite]
  | case4 inClass char rest noEscape isBreak =>
      rcases isBreak with rfl | rfl
      · simp [regexLength?]
      · simp at noReturn
  | case5 inClass char rest noEscape noBreak isEnd =>
      obtain ⟨rfl, rfl⟩ := isEnd
      have flags : rest.take (rest.takeWhile Char.isAlpha).length = rest.takeWhile Char.isAlpha :=
        List.prefix_iff_eq_take.mp (List.takeWhile_prefix _) |>.symm
      have noFlag : '\n' ∉ rest.takeWhile Char.isAlpha := fun member =>
        absurd (List.mem_takeWhile_imp member) (by decide)
      have sameLength := keepsPlace_takeWhile (show Char.isAlpha '\n' = false from rfl) rfl rest
      simp only [flags, crlf_of_notMem noFlag] at sameLength
      simp [crlf_cons, regexLength?, sameLength, flags, noFlag]
  | case6 inClass char rest noEscape noBreak noEnd inClass' ih =>
      simp only [List.mem_cons, not_or] at noReturn noBreak
      have step : regexLength? inClass (char :: crlf rest) =
          (regexLength? inClass' (crlf rest)).map (· + 1) := by
        rw [regexLength?, if_neg (not_or.mpr noBreak), if_neg noEnd]
        exact noEscape
      rw [crlf_cons noBreak.1, step, ih noReturn.2, Option.map_bind, Option.bind_map]
      congr 1
      funext length
      simp [Ne.symm noBreak.1, apply_ite]

/-! ## Templates -/

/-- The string that a character begins in an enclosure, its quotes included, if it begins one. -/
def Enclosure.strings (enclosure : Enclosure) (first : Char) (rest : Text) : List Text :=
  match enclosure with
  | template => []
  | substitution _ =>
      if first = '\'' ∨ first = '"' then [first :: rest.take (nestedQuotedLength first rest)]
      else []

/-- The strings in the substitutions of some enclosures, their quotes included. -/
def enclosedStrings : List Enclosure → Text → List Text
  | [], _ => []
  | _ :: _, [] => []
  | enclosure :: outer, first :: rest =>
      enclosure.strings first rest ++
        enclosedStrings (enclosure.after first rest ++ outer)
          (rest.drop (enclosure.passed first rest))
termination_by _ text => text.length
decreasing_by exact length_drop_lt _ rest 0

/-- The strings in the substitutions of a template, given the text after its opening backtick. -/
def templateStrings (text : Text) : List Text := enclosedStrings [.template] text

theorem enclosedStrings_cons (enclosure : Enclosure) (outer : List Enclosure) (first : Char)
    (rest : Text) :
    enclosedStrings (enclosure :: outer) (first :: rest) =
      enclosure.strings first rest ++
        enclosedStrings (enclosure.after first rest ++ outer)
          (rest.drop (enclosure.passed first rest)) := by
  rw [enclosedStrings]

/-- Carriage returns and line feeds are plain characters of templates and of substitutions. -/
theorem Enclosure.plain_of_break {char : Char} (isBreak : char = '\n' ∨ char = '\r')
    (enclosure : Enclosure) (rest : Text) :
    enclosure.passed char rest = 0 ∧ enclosure.after char rest = [enclosure] := by
  rcases isBreak with rfl | rfl <;> cases enclosure <;> simp [passed, after]

theorem enclosedLength_break {char : Char} (isBreak : char = '\n' ∨ char = '\r')
    (enclosure : Enclosure) (outer : List Enclosure) (rest : Text) :
    enclosedLength (enclosure :: outer) (char :: rest) =
      enclosedLength (enclosure :: outer) rest + 1 :=
  have plain := enclosure.plain_of_break isBreak rest
  enclosedLength_plain plain.1 plain.2 outer

theorem enclosedLength_escape (hidden : Char) (outer : List Enclosure) (rest : Text) :
    enclosedLength (.template :: outer) ('\\' :: hidden :: rest) =
      enclosedLength (.template :: outer) rest + 2 := by
  rw [enclosedLength_cons]
  simp [Enclosure.passed, Enclosure.after]

/-- What a template passes over ends at the same place, but for a line feed behind a backslash. -/
theorem Enclosure.samePlace_passed_template {first : Char} {rest : Text}
    (noEscape : ¬ (first = '\\' ∧ rest.head? = some '\n')) :
    SamePlace rest (passed .template first rest) (passed .template first (crlf rest)) := by
  have sameBrace : (crlf rest).head? = some '\x7b' ↔ rest.head? = some '\x7b' :=
    head?_crlf (by decide) (by decide)
  by_cases takes : first = '\\' ∨ first = '$' ∧ rest.head? = some '\x7b'
  · have takesToo : first = '\\' ∨ first = '$' ∧ (crlf rest).head? = some '\x7b' := by
      rwa [sameBrace]
    rw [passed, passed, if_pos takes, if_pos takesToo]
    cases rest with
    | nil => exact .zero []
    | cons next rest =>
        have noBreak : next ≠ '\n' := by
          rintro rfl
          simp_all
        rw [crlf_cons noBreak]
        simpa using (SamePlace.zero rest).cons noBreak
  · have takesNothing : ¬ (first = '\\' ∨ first = '$' ∧ (crlf rest).head? = some '\x7b') := by
      rwa [sameBrace]
    rw [passed, passed, if_neg takes, if_neg takesNothing]
    exact .zero rest

/-- What a substitution passes over ends at the same place if no string in it hides a line feed. -/
theorem Enclosure.samePlace_passed_substitution {depth : Nat} {first : Char} {rest : Text}
    (noReturn : '\r' ∉ rest)
    (unbroken : ∀ string ∈ strings (.substitution depth) first rest, '\n' ∉ string) :
    SamePlace rest (passed (.substitution depth) first rest)
      (passed (.substitution depth) first (crlf rest)) := by
  by_cases isQuote : first = '\'' ∨ first = '"'
  · rw [strings, if_pos isQuote] at unbroken
    have noBreak := mt (List.mem_cons_of_mem first) (unbroken _ List.mem_cons_self)
    rw [passed, passed, if_pos isQuote, if_pos isQuote]
    exact samePlace_nestedQuoted isQuote noReturn noBreak
  cases rest with
  | nil => simp [passed, isQuote, SamePlace.zero]
  | cons next rest =>
      by_cases isBreak : next = '\n'
      · subst isBreak
        rw [crlf_break, passed_substitution_cons, passed_substitution_cons]
        simp [isQuote, SamePlace.zero]
      rw [crlf_cons isBreak, passed_substitution_cons, passed_substitution_cons, if_neg isQuote,
        if_neg isQuote]
      by_cases isLine : first = '/' ∧ next = '/'
      · rw [if_pos isLine, if_pos isLine]
        exact (samePlace_lineComment rest).cons isBreak
      by_cases isBlock : first = '/' ∧ next = '*'
      · rw [if_neg isLine, if_neg isLine, if_pos isBlock, if_pos isBlock]
        exact (SamePlace.same (keepsPlace_blockComment rest)).cons isBreak
      · rw [if_neg isLine, if_neg isLine, if_neg isBlock, if_neg isBlock]
        exact .zero _

theorem enclosedLength_drop_crlf {stack : List Enclosure} {rest : Text} {length other : Nat}
    (place : SamePlace rest length other) (staysOpen : stack = [] → other = 0) :
    enclosedLength stack ((crlf rest).drop other) + other =
      enclosedLength stack (crlf (rest.drop length)) + (crlf (rest.take length)).length := by
  cases place with
  | same isLength => rw [isLength, drop_crlf]
  | atBreak more stops isLength =>
      cases stack with
      | nil =>
          have := staysOpen rfl
          omega
      | cons enclosure outer =>
          rw [isLength, ← List.drop_drop, drop_crlf, stops, crlf_break, List.drop_one,
            List.tail_cons, enclosedLength_break (.inr rfl)]
          omega

/-- What is open ends at the same place if no line feed is hidden in a string of a substitution. -/
theorem enclosedLength_crlf {stack : List Enclosure} {text : Text} (noReturn : '\r' ∉ text)
    (unbroken : ∀ string ∈ enclosedStrings stack text, '\n' ∉ string) :
    enclosedLength stack (crlf text) = (crlf (text.take (enclosedLength stack text))).length := by
  induction size : text.length using Nat.strongRecOn generalizing stack text with
  | ind size ih =>
  subst size
  match stack, text with
  | [], _ => simp
  | enclosure :: outer, [] => simp
  | enclosure :: outer, first :: rest =>
      rw [List.mem_cons, not_or] at noReturn
      rw [enclosedStrings_cons] at unbroken
      obtain ⟨own, later⟩ := List.forall_mem_append.mp unbroken
      have noReturnLater : '\r' ∉ rest.drop (enclosure.passed first rest) := fun member =>
        noReturn.2 (List.mem_of_mem_drop member)
      have inside := ih _ (length_drop_lt _ rest 0) noReturnLater later rfl
      by_cases isBreak : first = '\n'
      · subst isBreak
        obtain ⟨alone, stays⟩ := enclosure.plain_of_break (.inl rfl) rest
        rw [alone, stays, List.drop_zero] at inside
        rw [crlf_break, enclosedLength_break (.inr rfl), enclosedLength_break (.inl rfl),
          enclosedLength_break (.inl rfl), List.take_succ_cons, crlf_break]
        exact congrArg (· + 2) inside
      by_cases isEscape : enclosure = .template ∧ first = '\\' ∧ rest.head? = some '\n'
      · -- With the carriage return hidden instead, the line feed is a plain character.
        obtain ⟨rfl, rfl, hidden⟩ := isEscape
        obtain ⟨more, rfl⟩ := List.head?_eq_some_iff.mp hidden
        have passesBreak : Enclosure.passed .template '\\' ('\n' :: more) = 1 := by
          simp [Enclosure.passed]
        have stays : Enclosure.after .template '\\' ('\n' :: more) = [.template] := by
          simp [Enclosure.after]
        rw [passesBreak, stays, List.drop_one, List.tail_cons] at inside
        rw [crlf_cons isBreak, crlf_break, enclosedLength_escape, enclosedLength_escape,
          enclosedLength_break (.inl rfl), List.take_succ_cons, List.take_succ_cons,
          crlf_cons isBreak, crlf_break]
        exact congrArg (· + 3) inside
      have place : SamePlace rest (enclosure.passed first rest)
          (enclosure.passed first (crlf rest)) := by
        cases enclosure with
        | template => exact Enclosure.samePlace_passed_template (by simpa using isEscape)
        | substitution depth => exact Enclosure.samePlace_passed_substitution noReturn.2 own
      have sameAfter : enclosure.after first (crlf rest) = enclosure.after first rest :=
        enclosure.after_congr first (head?_crlf (by decide) (by decide))
      have staysOpen (closed : enclosure.after first rest ++ outer = []) :
          enclosure.passed first (crlf rest) = 0 :=
        (Enclosure.of_after_eq_nil (List.append_eq_nil_iff.mp closed).1 _).2
      rw [crlf_cons isBreak, enclosedLength_cons, enclosedLength_cons, sameAfter,
        enclosedLength_drop_crlf place staysOpen, inside, List.take_succ_cons,
        crlf_cons isBreak, List.length_cons, Nat.add_comm (enclosedLength _ _), List.take_add,
        crlf_append, List.length_append, Nat.add_comm (List.length _)]

end ComponentTsx.Literal
