import ComponentTsx.Proofs.Token.Ending

/-!
# How far comments, numbers and regular expressions reach

Each of these is told here by what it consists of, not by how it is scanned.  A
line comment goes on to the line feed and a block comment to the first star and
slash (`exists_blockComment`).  A number takes as much as a number can, so with
more of the text it would be none (`exists_number`).  A slash begins a
regular expression exactly if a body can be read up to another slash
(`regexLength?_eq_some_iff`).
-/

namespace ComponentTsx

set_option autoImplicit false

open Text

/-- What a condition holds of at the beginning of a text, and what follows it. -/
theorem exists_run (condition : Char → Bool) (text : Text) :
    ∃ run after, text = run ++ after ∧ (text.takeWhile condition).length = run.length ∧
      (∀ char ∈ run, condition char) ∧ ∀ next ∈ after.head?, ¬ condition next := by
  refine ⟨text.takeWhile condition, text.dropWhile condition,
    List.takeWhile_append_dropWhile.symm, rfl, fun char => List.mem_takeWhile_imp, ?_⟩
  intro next isNext
  have stops := List.head?_dropWhile_not condition text
  rw [Option.mem_def.mp isNext] at stops
  simpa using stops

namespace Literal

/-! ## Comments -/

/-- A line comment ends where the line does, or the text. -/
theorem exists_lineComment (text : Text) :
    ∃ body after, text = body ++ after ∧ lineCommentLength text = body.length ∧ '\n' ∉ body ∧
      (after = [] ∨ ['\n'] <+: after) := by
  obtain ⟨body, after, whole, length, inside, stops⟩ := exists_run (· ≠ '\n') text
  refine ⟨body, after, whole, length, fun member => by simpa using inside '\n' member, ?_⟩
  cases after with
  | nil => exact .inl rfl
  | cons next rest =>
      have isBreak : next = '\n' := by simpa using stops next rfl
      exact .inr ⟨rest, by rw [isBreak, List.singleton_append]⟩

/-- A block comment ends with the first star and slash, or has none and takes all of the text. -/
theorem exists_blockComment (text : Text) :
    ∃ body, ¬ ['*', '/'] <:+: body ∧
      ((∃ after, text = body ++ ['*', '/'] ++ after) ∧
          blockCommentLength text = (body ++ ['*', '/']).length ∨
        text = body ∧ blockCommentLength text = body.length) := by
  fun_induction blockCommentLength text with
  | case1 => exact ⟨[], by decide, .inr ⟨rfl, rfl⟩⟩
  | case2 rest => exact ⟨[], by decide, .inl ⟨⟨rest, rfl⟩, rfl⟩⟩
  | case3 char rest noEnd ih =>
      obtain ⟨body, closed, reaches⟩ := ih
      have begins : body <+: rest := by
        rcases reaches with ⟨⟨after, rfl⟩, -⟩ | ⟨rfl, -⟩
        · exact ⟨['*', '/'] ++ after, (List.append_assoc _ _ _).symm⟩
        · exact List.prefix_refl _
      refine ⟨char :: body, ?_, ?_⟩
      · rw [List.infix_cons_iff, not_or]
        refine ⟨fun ends => ?_, closed⟩
        obtain ⟨isStar, isSlash⟩ := List.cons_prefix_cons.mp ends
        obtain ⟨tail, whole⟩ := isSlash.trans begins
        exact noEnd tail isStar.symm whole.symm
      · rcases reaches with ⟨⟨after, rfl⟩, length⟩ | ⟨rfl, length⟩
        · exact .inl ⟨⟨after, rfl⟩, congrArg (· + 1) length⟩
        · exact .inr ⟨rfl, congrArg (· + 1) length⟩

/-! ## Regular expressions -/

/--
The body of a regular expression, inside a character class or outside of one.  A backslash hides any
character; a line feed or a carriage return that nothing hides is in no body, and such a slash is in
a class.
-/
inductive IsRegexBody : Bool → Text → Prop
  | nil : IsRegexBody false []
  | escape {inClass : Bool} {hidden : Char} {rest : Text} (later : IsRegexBody inClass rest) :
      IsRegexBody inClass ('\\' :: hidden :: rest)
  | opens {inClass : Bool} {rest : Text} (later : IsRegexBody true rest) :
      IsRegexBody inClass ('[' :: rest)
  | closes {inClass : Bool} {rest : Text} (later : IsRegexBody false rest) :
      IsRegexBody inClass (']' :: rest)
  | slash {rest : Text} (later : IsRegexBody true rest) : IsRegexBody true ('/' :: rest)
  | char {inClass : Bool} {char : Char} {rest : Text}
      (plain : char ∉ ['\\', '[', ']', '/', '\n', '\r']) (later : IsRegexBody inClass rest) :
      IsRegexBody inClass (char :: rest)

/-- The characters of a regular expression behind its body: a slash and flags. -/
def closingLength (more : Text) : Nat := (more.takeWhile Char.isAlpha).length + 1

theorem IsRegexBody.regexLength?_eq {inClass : Bool} {body : Text}
    (isBody : IsRegexBody inClass body) (more : Text) :
    regexLength? inClass (body ++ '/' :: more) = some (closingLength more + body.length) := by
  induction isBody with
  | nil => simp [regexLength?, closingLength]
  | escape _ ih => simp [regexLength?, ih, Nat.add_assoc]
  | opens _ ih => simp [regexLength?, ih, Nat.add_assoc]
  | closes _ ih => simp [regexLength?, ih, Nat.add_assoc]
  | slash _ ih => simp [regexLength?, ih, Nat.add_assoc]
  | char plain _ ih =>
      simp only [List.mem_cons, List.not_mem_nil, or_false, not_or] at plain
      obtain ⟨noEscape, noOpen, noClose, noSlash, noBreak, noReturn⟩ := plain
      rw [List.cons_append, regexLength?]
      · simp [ih, noOpen, noClose, noSlash, noBreak, noReturn, Nat.add_assoc]
      · exact noEscape

theorem exists_isRegexBody {inClass : Bool} {text : Text} {length : Nat}
    (read : regexLength? inClass text = some length) :
    ∃ body more, text = body ++ '/' :: more ∧ IsRegexBody inClass body := by
  fun_induction regexLength? inClass text generalizing length with
  | case1 inClass => cases read
  | case2 inClass => cases read
  | case3 inClass hidden rest ih =>
      obtain ⟨later, readLater, -⟩ := Option.map_eq_some_iff.mp read
      obtain ⟨body, more, rfl, isBody⟩ := ih readLater
      exact ⟨'\\' :: hidden :: body, more, rfl, .escape isBody⟩
  | case4 inClass char rest noEscape isBreak => cases read
  | case5 inClass char rest noEscape noBreak isEnd =>
      obtain ⟨rfl, rfl⟩ := isEnd
      exact ⟨[], rest, rfl, .nil⟩
  | case6 inClass char rest noEscape noBreak noEnd inClass' =>
      rename_i ih
      obtain ⟨later, readLater, -⟩ := Option.map_eq_some_iff.mp read
      obtain ⟨body, more, rfl, isBody⟩ := ih readLater
      refine ⟨char :: body, more, rfl, ?_⟩
      by_cases isOpen : char = '['
      · subst isOpen
        exact .opens isBody
      by_cases isClose : char = ']'
      · subst isClose
        exact .closes isBody
      have same : inClass' = inClass := (if_neg isOpen).trans (if_neg isClose)
      rw [same] at isBody
      by_cases isSlash : char = '/'
      · subst isSlash
        have isInClass : inClass = true := by simpa using noEnd
        subst isInClass
        exact .slash isBody
      · refine .char ?_ isBody
        simp_all

/-- **A regular expression is a body, the slash behind it and its flags.** -/
theorem regexLength?_eq_some_iff {inClass : Bool} {text : Text} {length : Nat} :
    regexLength? inClass text = some length ↔
      ∃ body more, text = body ++ '/' :: more ∧ IsRegexBody inClass body ∧
        length = closingLength more + body.length := by
  constructor
  · intro read
    obtain ⟨body, more, rfl, isBody⟩ := exists_isRegexBody read
    exact ⟨body, more, rfl, isBody, Option.some.inj (read.symm.trans (isBody.regexLength?_eq more))⟩
  · rintro ⟨body, more, rfl, isBody, rfl⟩
    exact isBody.regexLength?_eq more

end Literal

/-! ## Numbers -/

/-- What may stand behind the whole part of a number: nothing, or a point and more of the number. -/
def Text.IsFraction (text : Text) : Prop :=
  text = [] ∨ ∃ digits, text = '.' :: digits ∧ ∀ char ∈ digits, continuesNumber char

/-- Whether a text is a number: a digit, what goes on with it, and perhaps a fraction. -/
def Text.IsNumber (text : Text) : Prop :=
  ∃ digit whole fraction, text = digit :: (whole ++ fraction) ∧ digit.isDigit ∧
    (∀ char ∈ whole, continuesNumber char) ∧ Text.IsFraction fraction

theorem Text.IsFraction.bounds {fraction : Text} (isFraction : fraction.IsFraction) :
    (∀ char ∈ fraction, continuesNumber char ∨ char = '.') ∧ fraction.count '.' ≤ 1 := by
  rcases isFraction with rfl | ⟨digits, rfl, continues⟩
  · simp
  · refine ⟨List.forall_mem_cons.mpr ⟨.inr rfl, ?_⟩, ?_⟩
    · exact fun char member => .inl (continues char member)
    have noPoint : '.' ∉ digits := fun member => absurd (continues '.' member) (by decide)
    rw [List.count_cons_self, List.count_eq_zero.mpr noPoint]

/-- A number has one point at most, and goes on with each of its other characters. -/
theorem Text.IsNumber.bounds {text : Text} (isNumber : text.IsNumber) :
    (∀ char ∈ text, continuesNumber char ∨ char = '.') ∧ text.count '.' ≤ 1 := by
  obtain ⟨digit, whole, fraction, rfl, isDigit, continues, isFraction⟩ := isNumber
  obtain ⟨inFraction, onePoint⟩ := isFraction.bounds
  have digitContinues : continuesNumber digit := by
    simp [continuesNumber, Char.isAlphanum, isDigit]
  have noPoint : '.' ∉ digit :: whole := by
    intro member
    rcases List.mem_cons.mp member with rfl | member
    · exact absurd isDigit (by decide)
    · exact absurd (continues '.' member) (by decide)
  constructor
  · refine List.forall_mem_cons.mpr ⟨.inl digitContinues, ?_⟩
    exact List.forall_mem_append.mpr ⟨fun char member => .inl (continues char member), inFraction⟩
  · rw [← List.cons_append, List.count_append, List.count_eq_zero.mpr noPoint, Nat.zero_add]
    exact onePoint

/-- A point and what goes on with the number behind it, or nothing. -/
theorem exists_fraction (text : Text) :
    ∃ fraction after, text = fraction ++ after ∧ fractionLength text = fraction.length ∧
      fraction.IsFraction ∧
      ∀ next ∈ after.head?, (fraction = [] → next ≠ '.') ∧
        (fraction ≠ [] → ¬ continuesNumber next) := by
  unfold fractionLength
  split
  · rename_i rest
    obtain ⟨digits, after, rfl, length, continues, stops⟩ := exists_run continuesNumber rest
    exact ⟨'.' :: digits, after, rfl, congrArg (· + 1) length, .inr ⟨digits, rfl, continues⟩,
      fun next isNext => ⟨nofun, fun _ => stops next isNext⟩⟩
  · rename_i noPoint
    refine ⟨[], text, rfl, rfl, .inl rfl, fun next isNext => ⟨fun _ isPoint => ?_, nofun⟩⟩
    obtain ⟨rest, rfl⟩ := List.head?_eq_some_iff.mp isNext
    exact noPoint rest (congrArg (· :: rest) isPoint)

/-- **A number takes what belongs to it, and with more of the text it would be no number.** -/
theorem exists_number {digit : Char} (isDigit : digit.isDigit) (text : Text) :
    ∃ inside after, text = inside ++ after ∧ numberLength text = inside.length ∧
      Text.IsNumber (digit :: inside) ∧
      ∀ more, more ≠ [] → more <+: after → ¬ Text.IsNumber (digit :: inside ++ more) := by
  obtain ⟨whole, tail, rfl, wholeLength, continues, wholeStops⟩ := exists_run continuesNumber text
  obtain ⟨fraction, after, rfl, length, isFraction, stops⟩ := exists_fraction tail
  refine ⟨whole ++ fraction, after, (List.append_assoc _ _ _).symm, ?_,
    ⟨digit, whole, fraction, rfl, isDigit, continues, isFraction⟩, ?_⟩
  · rw [numberLength_eq, wholeLength, List.drop_left, length, List.length_append, Nat.add_comm]
  · rintro (_ | ⟨next, more⟩) nonempty ⟨others, isAfter⟩ isLonger
    · exact nonempty rfl
    have isNext : next ∈ after.head? := by
      rw [← isAfter]
      rfl
    obtain ⟨inNumber, onePoint⟩ := isLonger.bounds
    -- What follows the number can only be a point: the first one, which the number passed by, or
    -- one too many.
    have noDigit : ¬ continuesNumber next := by
      by_cases isEmpty : fraction = []
      · apply wholeStops next
        rwa [isEmpty, List.nil_append]
      · exact (stops next isNext).2 isEmpty
    have isPoint : next = '.' := (inNumber next (by simp)).resolve_left noDigit
    rcases isFraction with isEmpty | ⟨digits, rfl, -⟩
    · exact (stops next isNext).1 isEmpty isPoint
    · rw [isPoint] at onePoint
      simp [List.count_append, List.count_cons] at onePoint
      omega

end ComponentTsx
