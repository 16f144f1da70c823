import ComponentTsx.Config
import ComponentTsx.Proofs.Token.Spelling

/-!
# Comments that are taken out

A comment can be put between any two characters of a configuration that are
outside its strings, a line comment only where the line or the text ends
(`Commented`).  If the configuration itself has slashes in its strings only, all
comments are taken out again and nothing else is (`removeComments_commented`).

Taking comments out goes through a text character by character.  What happens to
a character depends on where it stands (`removeFrom_cons`): in a string it stays,
and outside it stays unless it begins a comment.  A slash that stays is not
followed by anything that would make it a comment, so whatever the text, no
comment is left (`removeFrom_removeFrom`).
-/

namespace ComponentTsx.Config

set_option autoImplicit false

/-! ## Places in a text with strings -/

/-- Where a character stands. -/
inductive Place where
  | outside
  | inString
  /-- Behind a backslash in a string. -/
  | escaped
deriving DecidableEq, Repr

/-- Where the character behind a character stands. -/
def Place.after : Place → Char → Place
  | outside, '"' => inString
  | outside, _ => outside
  | inString, '"' => outside
  | inString, '\\' => escaped
  | inString, _ => inString
  | escaped, _ => inString

/-- Whether all slashes of a text that begins at a place are in strings. -/
def hasNoSlash : Place → Text → Bool
  | _, [] => true
  | place, char :: rest =>
      !(place = .outside && char = '/') && hasNoSlash (place.after char) rest

/-- Whether a text is a comment, where it has another text behind it. -/
inductive IsComment : Text → Text → Prop
  | block {body behind : Text} (closed : ¬ ['*', '/'] <:+: body) :
      IsComment ('/' :: '*' :: (body ++ ['*', '/'])) behind
  | line {body behind : Text} (oneLine : '\n' ∉ body) (ends : ∀ next ∈ behind.head?, next = '\n') :
      IsComment ('/' :: '/' :: body) behind

/-- Whether a text from a place on becomes another one if comments are put outside strings. -/
inductive Commented : Place → Text → Text → Prop
  | nil (place : Place) : Commented place [] []
  | char {place : Place} {char : Char} {plain commented : Text}
      (later : Commented (place.after char) plain commented) :
      Commented place (char :: plain) (char :: commented)
  | comment {comment plain commented : Text} (isComment : IsComment comment commented)
      (later : Commented .outside plain commented) :
      Commented .outside plain (comment ++ commented)

/-- A part of the text may have no comments. -/
theorem Commented.append (part : Text) {place : Place} {plain commented : Text}
    (later : Commented (part.foldl Place.after place) plain commented) :
    Commented place (part ++ plain) (part ++ commented) := by
  induction part generalizing place with
  | nil => exact later
  | cons char rest ih => exact .char (ih later)

theorem Commented.refl (place : Place) (text : Text) : Commented place text text := by
  have whole := Commented.append text (.nil (text.foldl Place.after place))
  rwa [List.append_nil] at whole

/-! ## Taking comments out from a place on -/

/-- The text without its comments, if it begins at a place. -/
def removeFrom : Place → Text → Text
  | .outside, text => removeComments text
  | .inString, text =>
      text.take (stringLength text) ++ removeComments (text.drop (stringLength text))
  | .escaped, [] => []
  | .escaped, char :: rest =>
      char :: (rest.take (stringLength rest) ++ removeComments (rest.drop (stringLength rest)))

theorem removeFrom_outside (text : Text) : removeFrom .outside text = removeComments text := rfl

theorem removeFrom_nil (place : Place) : removeFrom place [] = [] := by
  cases place <;> simp [removeFrom, stringLength, removeComments]

/-- Whether a slash before a text begins no comment. -/
def IsStray (text : Text) : Prop := text.head? ≠ some '/' ∧ text.head? ≠ some '*'

theorem removeComments_stray {text : Text} (stray : IsStray text) :
    removeComments ('/' :: text) = '/' :: removeComments text := by
  obtain ⟨noSlash, noStar⟩ := stray
  rw [removeComments]
  · decide
  · rintro rest - rfl
    exact noSlash rfl
  · rintro rest - rfl
    exact noStar rfl

theorem removeComments_char {char : Char} (noQuote : char ≠ '"') (noSlash : char ≠ '/')
    (rest : Text) : removeComments (char :: rest) = char :: removeComments rest := by
  rw [removeComments]
  · exact noQuote
  · exact fun _ isSlash _ => noSlash isSlash
  · exact fun _ isSlash _ => noSlash isSlash

/-- **A character that begins no comment stays, and the text behind it is read from its place.** -/
theorem removeFrom_cons {place : Place} {char : Char} (stays : place = .outside → char ≠ '/')
    (rest : Text) :
    removeFrom place (char :: rest) = char :: removeFrom (place.after char) rest := by
  cases place with
  | outside =>
      by_cases isQuote : char = '"'
      · rw [isQuote, removeFrom, removeComments, Place.after, removeFrom, List.cons_append]
      · have isOutside : Place.outside.after char = .outside := by
          rw [Place.after]
          exact isQuote
        rw [isOutside, removeFrom, removeFrom, removeComments_char isQuote (stays rfl)]
  | inString =>
      by_cases isQuote : char = '"'
      · rw [isQuote]
        simp [removeFrom, Place.after, stringLength]
      by_cases isEscape : char = '\\'
      · rw [isEscape]
        cases rest <;> simp [removeFrom, Place.after, stringLength, removeComments]
      · have isInString : Place.inString.after char = .inString := by
          rw [Place.after]
          · exact isQuote
          · exact isEscape
        have length : stringLength (char :: rest) = stringLength rest + 1 := by
          rw [stringLength]
          · exact isQuote
          · exact fun _ _ same _ => isEscape same
        rw [isInString, removeFrom, removeFrom, length, List.take_succ_cons, List.drop_succ_cons,
          List.cons_append]
  | escaped => rfl

/-- A comment is taken out. -/
theorem IsComment.removeComments_append {comment behind : Text}
    (isComment : IsComment comment behind) :
    removeComments (comment ++ behind) = removeComments behind := by
  cases isComment with
  | @block body _ closed =>
      have split : body ++ ['*', '/'] ++ behind = body ++ '*' :: '/' :: behind := by simp
      rw [List.cons_append, List.cons_append, removeComments, split,
        blockCommentLength_closed closed, ← split, List.drop_left]
  | @line body _ oneLine ends =>
      rw [List.cons_append, List.cons_append, removeComments,
        lineCommentLength_closed oneLine ends, List.drop_left]

/-! ## Comments that were put into a text -/

/-- **Comments that are put into a text are taken out of it.** -/
theorem removeFrom_commented {place : Place} {plain commented : Text}
    (isCommented : Commented place plain commented) (noSlash : hasNoSlash place plain) :
    removeFrom place commented = plain := by
  induction isCommented with
  | nil place => exact removeFrom_nil place
  | @char place char plain commented _ ih =>
      rw [hasNoSlash, Bool.and_eq_true, Bool.not_eq_true', Bool.and_eq_false_imp] at noSlash
      obtain ⟨stays, later⟩ := noSlash
      rw [removeFrom_cons, ih later]
      simpa using stays
  | comment isComment _ ih =>
      rw [removeFrom, isComment.removeComments_append]
      exact ih noSlash

theorem removeComments_of_hasNoSlash {text : Text} (noSlash : hasNoSlash .outside text) :
    removeComments text = text :=
  removeFrom_commented (.refl .outside text) noSlash

/-! ## Taking comments out again -/

/-- A text without a comment at its beginning begins with the same character without any. -/
theorem head?_removeComments {text : Text} (noSlash : text.head? ≠ some '/') :
    (removeComments text).head? = text.head? := by
  cases text with
  | nil => rw [removeComments]
  | cons char rest =>
      have stays : char ≠ '/' := by simpa using noSlash
      have kept := @removeFrom_cons .outside char (fun _ => stays) rest
      rw [removeFrom] at kept
      rw [kept]
      rfl

theorem IsStray.removeComments {text : Text} (stray : IsStray text) :
    IsStray (removeComments text) := by
  rw [IsStray, head?_removeComments stray.1]
  exact stray

/-- A text that begins with a slash begins with a comment, or the slash is stray. -/
theorem removeComments_slash_cases (rest : Text) :
    IsStray rest ∨ ∃ behind : Text, behind.length < rest.length + 1 ∧
      removeComments ('/' :: rest) = removeComments behind := by
  by_cases isLine : rest.head? = some '/'
  · obtain ⟨rest, rfl⟩ := List.head?_eq_some_iff.mp isLine
    refine .inr ⟨rest.drop (Literal.lineCommentLength rest), ?_, by rw [removeComments]⟩
    exact Literal.length_drop_lt _ rest 1
  by_cases isBlock : rest.head? = some '*'
  · obtain ⟨rest, rfl⟩ := List.head?_eq_some_iff.mp isBlock
    refine .inr ⟨rest.drop (Literal.blockCommentLength rest), ?_, by rw [removeComments]⟩
    exact Literal.length_drop_lt _ rest 1
  · exact .inl ⟨isLine, isBlock⟩

theorem removeFrom_removeFrom (place : Place) (text : Text) :
    removeFrom place (removeFrom place text) = removeFrom place text := by
  induction length : text.length using Nat.strong_induction_on generalizing place text with
  | _ count ih =>
      cases text with
      | nil => rw [removeFrom_nil, removeFrom_nil]
      | cons char rest =>
          by_cases stays : place = .outside → char ≠ '/'
          · have again := ih rest.length (by simp [← length]) (place.after char) rest rfl
            rw [removeFrom_cons stays, removeFrom_cons stays, again]
          · obtain ⟨rfl, isSlash⟩ := Classical.not_imp.mp stays
            obtain rfl := not_ne_iff.mp isSlash
            simp only [removeFrom_outside]
            rcases removeComments_slash_cases rest with stray | ⟨behind, shorter, taken⟩
            · have again := ih rest.length (by simp [← length]) .outside rest rfl
              simp only [removeFrom_outside] at again
              rw [removeComments_stray stray, removeComments_stray stray.removeComments, again]
            · rw [taken]
              exact ih behind.length (by simpa [← length] using shorter) .outside behind rfl

/--
**Comments in a configuration make no difference**, wherever outside its strings they are put, and
they are all taken out at once, of any text.
-/
theorem removeComments_commented :
    (∀ {plain commented : Text}, hasNoSlash .outside plain → Commented .outside plain commented →
      removeComments commented = plain ∧ parse? commented = parse? plain) ∧
    ∀ text : Text, removeComments (removeComments text) = removeComments text := by
  refine ⟨fun noSlash isCommented => ?_, removeFrom_removeFrom .outside⟩
  have taken : removeComments _ = _ := removeFrom_commented isCommented noSlash
  rw [parse?, parse?, taken, removeComments_of_hasNoSlash noSlash]
  exact ⟨rfl, rfl⟩

/-- Quotes in comments, and what looks like comments in a string that has an escaped quote. -/
theorem removeComments_commented_quotes :
    let first : Text := "\x7b".toList
    let second : Text := "\"exclude/*\\\"//\": [],".toList
    let third : Text := "\n\"outDir\": \"*/\"\x7d".toList
    let plain := first ++ (second ++ third)
    let commented := first ++ ("/* \" /*/".toList ++
      (second ++ ("// *\"/".toList ++ (third ++ "/***/".toList))))
    hasNoSlash .outside plain ∧ Commented .outside plain commented ∧
      removeComments commented = plain ∧ parse? commented = parse? plain ∧
      removeComments (removeComments commented) = removeComments commented := by
  intro first second third plain commented
  have noSlash : hasNoSlash .outside plain := by decide +kernel
  have afterFirst : first.foldl Place.after .outside = .outside := by decide +kernel
  have afterSecond : second.foldl Place.after .outside = .outside := by decide +kernel
  have afterThird : third.foldl Place.after .outside = .outside := by decide +kernel
  have atEnd : Commented .outside third (third ++ "/***/".toList) := by
    have closed : ¬ ['*', '/'] <:+: "*".toList := by decide
    have ends : Commented .outside [] ("/***/".toList ++ []) := .comment (.block closed) (.nil _)
    rw [List.append_nil, ← afterThird] at ends
    have whole := Commented.append third ends
    rwa [List.append_nil] at whole
  have isCommented : Commented .outside plain commented := by
    apply Commented.append first
    rw [afterFirst]
    apply Commented.comment (.block (by decide : ¬ ['*', '/'] <:+: " \" /".toList))
    apply Commented.append second
    rw [afterSecond]
    have breaks : (third ++ "/***/".toList).head? = some '\n' := by decide +kernel
    apply Commented.comment (.line (by decide : '\n' ∉ " *\"/".toList)
      fun next isNext => Option.some.inj (isNext.symm.trans breaks))
    exact atEnd
  obtain ⟨taken, same⟩ := removeComments_commented.1 noSlash isCommented
  exact ⟨noSlash, isCommented, taken, same, removeComments_commented.2 commented⟩

end ComponentTsx.Config
