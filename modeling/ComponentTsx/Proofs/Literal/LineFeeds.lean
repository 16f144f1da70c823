import ComponentTsx.Proofs.Token.Ending
import ComponentTsx.Proofs.Text.Lines

/-!
# Line feeds in literals

A string goes on over a line feed only if a backslash hides it, alone or with a
carriage return in between.  A regular expression should not go on over a line
feed at all, but it steps over whatever a backslash hides.  So in either of them
an escape stands right before each line feed (`BreaksBehind`), and a regular
expression without a line feed is closed on the line that it begins on
(`closes_of_regexLength?`).
-/

namespace ComponentTsx

set_option autoImplicit false

namespace Text

/-- A character of two texts that are joined is in the first one or in the second. -/
theorem exists_of_append_eq_cons {first second before after : Text} {char : Char}
    (whole : first ++ second = before ++ char :: after) :
    (∃ tail, first = before ++ char :: tail) ∨
      ∃ head, before = first ++ head ∧ second = head ++ char :: after := by
  rcases List.append_eq_append_iff.mp whole with ⟨head, isBefore, isSecond⟩ | ⟨part, isFirst, rest⟩
  · exact .inr ⟨head, isBefore, isSecond⟩
  · cases part with
    | nil => exact .inr ⟨[], by simpa using isFirst.symm, rest.symm⟩
    | cons next tail =>
        obtain ⟨rfl, -⟩ := List.cons.inj rest
        exact .inl ⟨tail, isFirst⟩

/-- Whether one of some escapes stands right before each line feed of a text. -/
def BreaksBehind (escapes : List Text) (text : Text) : Prop :=
  ∀ head tail, text = head ++ '\n' :: tail → ∃ escape ∈ escapes, escape <:+ head

variable {escapes : List Text}

theorem breaksBehind_of_notMem {text : Text} (noBreak : '\n' ∉ text) :
    BreaksBehind escapes text := by
  rintro head tail rfl
  exact absurd (List.mem_append_right head (List.mem_cons_self ..)) noBreak

theorem BreaksBehind.append {first second : Text} (behind : BreaksBehind escapes first)
    (behindToo : BreaksBehind escapes second) : BreaksBehind escapes (first ++ second) := by
  intro head tail whole
  rcases exists_of_append_eq_cons whole with ⟨more, isFirst⟩ | ⟨rest, rfl, isSecond⟩
  · exact behind head more isFirst
  · obtain ⟨escape, isEscape, ends⟩ := behindToo rest tail isSecond
    exact ⟨escape, isEscape, ends.trans (List.suffix_append first rest)⟩

/-- A line feed right behind an escape is hidden. -/
theorem breaksBehind_escape {escape : Text} (isEscape : escape ∈ escapes) (noBreak : '\n' ∉ escape)
    (hidden : Char) : BreaksBehind escapes (escape ++ [hidden]) := by
  intro head tail whole
  rcases exists_of_append_eq_cons whole with ⟨more, rfl⟩ | ⟨rest, rfl, isHidden⟩
  · exact absurd (by simp) noBreak
  · cases rest with
    | nil => exact ⟨escape, isEscape, by simp⟩
    | cons next rest => simp at isHidden

/-- The part of a text that its first characters of some kind make up. -/
theorem take_length_takeWhile (condition : Char → Bool) (text : Text) :
    text.take (text.takeWhile condition).length = text.takeWhile condition :=
  (List.prefix_iff_eq_take.mp (List.takeWhile_prefix condition)).symm

/-- Characters of a kind that no line feed is of have no line feed among them. -/
theorem notMem_takeWhile {condition : Char → Bool} (notBreak : condition '\n' = false)
    (text : Text) : '\n' ∉ text.takeWhile condition := by
  intro member
  rw [List.mem_takeWhile_imp member] at notBreak
  cases notBreak

theorem firstLine_cons {char : Char} (noBreak : char ≠ '\n') (rest : Text) :
    firstLine (char :: rest) = char :: rest.firstLine := by
  simp [firstLine, noBreak]

end Text

namespace Literal

open Text

/-! ## Strings and regular expressions -/

/-- What hides a line feed in a string. -/
def stringEscapes : List Text := [['\\'], ['\\', '\r']]

/-- What hides a line feed in a regular expression. -/
def regexEscapes : List Text := [['\\']]

theorem breaksBehind_quoted (quote : Char) (text : Text) :
    BreaksBehind stringEscapes (text.take (quotedLength quote text)) := by
  fun_induction quotedLength quote text with
  | case1 => exact breaksBehind_of_notMem (by simp)
  | case2 hidden rest ih =>
      have escaped : BreaksBehind stringEscapes (['\\', '\r'] ++ [hidden]) :=
        breaksBehind_escape (by simp [stringEscapes]) (by decide) hidden
      exact escaped.append ih
  | case3 hidden rest noReturn ih =>
      have escaped : BreaksBehind stringEscapes (['\\'] ++ [hidden]) :=
        breaksBehind_escape (by simp [stringEscapes]) (by decide) hidden
      exact escaped.append ih
  | case4 rest => exact breaksBehind_of_notMem (by simp)
  | case5 rest noReturn noEscape noBreak =>
      exact breaksBehind_of_notMem (by simpa using Ne.symm noBreak)
  | case6 char rest noReturn noEscape noBreak noQuote ih =>
      have single : BreaksBehind stringEscapes [char] :=
        breaksBehind_of_notMem (by simpa using Ne.symm noBreak)
      exact single.append ih

theorem breaksBehind_regex {inClass : Bool} {text : Text} {length : Nat}
    (read : regexLength? inClass text = some length) :
    BreaksBehind regexEscapes (text.take length) := by
  fun_induction regexLength? inClass text generalizing length with
  | case1 inClass => cases read
  | case2 inClass => cases read
  | case3 inClass hidden rest ih =>
      obtain ⟨later, readLater, rfl⟩ := Option.map_eq_some_iff.mp read
      have escaped : BreaksBehind regexEscapes (['\\'] ++ [hidden]) :=
        breaksBehind_escape (by simp [regexEscapes]) (by decide) hidden
      exact escaped.append (ih readLater)
  | case4 inClass char rest noEscape isBreak => cases read
  | case5 inClass char rest noEscape noBreak isEnd =>
      cases read
      apply breaksBehind_of_notMem
      rw [List.take_succ_cons, take_length_takeWhile, List.mem_cons, not_or]
      exact ⟨fun isBreak => noBreak (.inl isBreak.symm), notMem_takeWhile rfl rest⟩
  | case6 inClass char rest noEscape noBreak noEnd inClass' =>
      rename_i ih
      obtain ⟨later, readLater, rfl⟩ := Option.map_eq_some_iff.mp read
      have single : BreaksBehind regexEscapes [char] :=
        breaksBehind_of_notMem (by simpa using fun isBreak => noBreak (.inl isBreak.symm))
      exact single.append (ih readLater)

/-! ## Closing on the same line -/

/--
Whether a regular expression that goes on with a text is closed in it: by a slash that no backslash
hides and that stands in no character class.
-/
inductive Closes : Bool → Text → Prop where
  | slash {rest : Text} : Closes false ('/' :: rest)
  | escape {inClass : Bool} {hidden : Char} {rest : Text} :
      Closes inClass rest → Closes inClass ('\\' :: hidden :: rest)
  | char {inClass : Bool} {char : Char} {rest : Text} (noEscape : char ≠ '\\') :
      Closes (if char = '[' then true else if char = ']' then false else inClass) rest →
        Closes inClass (char :: rest)

/-- A regular expression without a line feed is closed on the line that it begins on. -/
theorem closes_of_regexLength? {inClass : Bool} {text : Text} {length : Nat}
    (read : regexLength? inClass text = some length) (oneLine : '\n' ∉ text.take length) :
    Closes inClass text.firstLine := by
  fun_induction regexLength? inClass text generalizing length with
  | case1 inClass => cases read
  | case2 inClass => cases read
  | case3 inClass hidden rest ih =>
      obtain ⟨later, readLater, rfl⟩ := Option.map_eq_some_iff.mp read
      simp only [List.take_succ_cons, List.mem_cons, not_or] at oneLine
      rw [firstLine_cons (by decide), firstLine_cons (Ne.symm oneLine.2.1)]
      exact .escape (ih readLater oneLine.2.2)
  | case4 inClass char rest noEscape isBreak => cases read
  | case5 inClass char rest noEscape noBreak isEnd =>
      obtain ⟨rfl, rfl⟩ := isEnd
      rw [firstLine_cons (by decide)]
      exact .slash
  | case6 inClass char rest noEscape noBreak noEnd inClass' =>
      rename_i ih
      obtain ⟨later, readLater, rfl⟩ := Option.map_eq_some_iff.mp read
      simp only [List.take_succ_cons, List.mem_cons, not_or] at oneLine
      rw [firstLine_cons (Ne.symm oneLine.1)]
      refine .char ?_ (ih readLater oneLine.2)
      rintro rfl
      exact noEscape rfl

end Literal

end ComponentTsx
