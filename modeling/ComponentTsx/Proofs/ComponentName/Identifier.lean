import ComponentTsx.Proofs.ComponentName.Word

/-!
# Component names as identifiers

The test for identifiers asks for letters, digits, `_` and `$`.  Upper case leads
from a letter to letters, but for some characters without a capital of their own:
their upper case is a letter with combining marks (`markedCapitals`), and the
test lets no mark through.  A file name that passes the test is kept.  Of any
other file name the words are run together, and the result passes exactly if no
word begins with such a character (`isIdentifier_ofPath_iff`).

The lexer is more lenient than the test, so the function is named by one word in
any case.
-/

namespace ComponentTsx

set_option autoImplicit false

/-! ## Upper case -/

/-- Whether the code points from one to another lie in one of some ascending ranges. -/
def CodeRanges.covers (first last : Nat) : CodeRanges → Bool
  | [] => false
  | range :: rest => if last ≤ range.2 then range.1 ≤ first else covers first last rest

theorem CodeRanges.contains_of_covers {ranges : CodeRanges} {first last code : Nat}
    (covered : covers first last ranges) (above : first ≤ code) (below : code ≤ last) :
    ranges.contains code := by
  induction ranges with
  | nil => cases covered
  | cons range rest ih =>
      rw [covers] at covered
      rw [contains, List.any_cons, Bool.or_eq_true, Bool.and_eq_true, decide_eq_true_eq,
        decide_eq_true_eq]
      split at covered
      · rw [decide_eq_true_eq] at covered
        exact .inl ⟨covered.trans above, by omega⟩
      · exact .inr (ih covered)

/--
Whether all upper-case characters of a run are alphabetic.  Most runs lead into one range; a run
that takes every other character may lead into several.
-/
def CaseRun.yieldsAlphabetic (run : CaseRun) : Bool :=
  alphabeticRanges.covers (run.first + run.distance).toNat (run.last + run.distance).toNat ||
    (List.range (run.last + 1 - run.first)).all fun offset =>
      decide (offset % run.step ≠ 0) ||
        alphabeticRanges.contains ((run.first + offset : Nat) + run.distance).toNat

theorem CaseRun.isAlphabetic_of_contains {run : CaseRun} {code : Nat} (member : run ∈ caseRuns)
    (contained : run.contains code) :
    isAlphabetic (Char.ofNat ((code : Int) + run.distance).toNat) := by
  have runs : caseRuns.all yieldsAlphabetic := by decide +kernel
  rw [isAlphabetic, toNat_of_contains (yieldsLetters_of_mem member) contained]
  simp only [contains, Bool.and_eq_true, decide_eq_true_eq] at contained
  obtain ⟨⟨above, below⟩, inStep⟩ := contained
  rcases (Bool.or_eq_true _ _).mp (List.all_eq_true.mp runs run member) with covered | eachOne
  · exact CodeRanges.contains_of_covers covered (by omega) (by omega)
  · have here := List.all_eq_true.mp eachOne (code - run.first) (List.mem_range.mpr (by omega))
    rw [Nat.add_sub_cancel' above] at here
    simpa [inStep] using here

/-- The upper case of a letter begins with a letter. -/
theorem exists_uppercase_of_isAlphabetic {char : Char} (alphabetic : isAlphabetic char) :
    ∃ first rest, uppercase char = first :: rest ∧ isAlphabetic first := by
  have expansions : ∀ expansion ∈ caseExpansions,
      ∃ first ∈ expansion.2.head?, isAlphabetic (Char.ofNat first) := by
    decide +kernel
  rcases uppercase_eq char with ⟨codes, listed, same⟩ | ⟨run, member, contained, same⟩ | same
  · obtain ⟨first, isFirst, letter⟩ := expansions (char.toNat, codes) listed
    obtain ⟨rest, rfl⟩ := List.head?_eq_some_iff.mp isFirst
    exact ⟨Char.ofNat first, rest.map Char.ofNat, same, letter⟩
  · exact ⟨_, [], same, CaseRun.isAlphabetic_of_contains member contained⟩
  · exact ⟨char, [], same, alphabetic⟩

namespace ComponentName

theorem continuesName_of_isAlphanumeric {char : Char} (alphanumeric : isAlphanumeric char) :
    continuesName char := by
  rw [continuesName, alphanumeric, Bool.true_or, Bool.true_or]

theorem isAlphanumeric_of_isAlphabetic {char : Char} (alphabetic : isAlphabetic char) :
    isAlphanumeric char := by
  rw [isAlphanumeric, alphabetic, Bool.true_or]

/-- The characters whose upper case has marks that no identifier has by the test. -/
def markedCapitals : Text :=
  (caseExpansions.map fun expansion => Char.ofNat expansion.1).filter fun char =>
    !(uppercase char).all continuesName

example : markedCapitals.take 3 = ['ǰ', 'ΐ', 'ΰ'] ∧ markedCapitals.length = 26 := by decide +kernel

theorem mem_markedCapitals_iff {char : Char} (alphanumeric : isAlphanumeric char) :
    char ∈ markedCapitals ↔ ∃ mark ∈ uppercase char, ¬ continuesName mark := by
  simp only [markedCapitals, List.mem_filter, List.mem_map, Bool.not_eq_true', List.all_eq_false]
  refine and_iff_right_of_imp ?_
  rintro ⟨mark, isUpper, noName⟩
  rcases uppercase_eq char with ⟨codes, listed, _⟩ | ⟨run, member, contained, same⟩ | same
  · exact ⟨(char.toNat, codes), listed, Char.ofNat_toNat char⟩
  · rw [same] at isUpper
    refine absurd (continuesName_of_isAlphanumeric (isAlphanumeric_of_isAlphabetic ?_)) noName
    rw [List.mem_singleton.mp isUpper]
    exact CaseRun.isAlphabetic_of_contains member contained
  · rw [same] at isUpper
    refine absurd (continuesName_of_isAlphanumeric ?_) noName
    rwa [List.mem_singleton.mp isUpper]

/-! ## Words that are run together -/

/--
Whether a letter or digit of a text begins a word of it: between the one before it and itself stands
a character that separates words.  The first one does so if a word is to begin with the text.
-/
def BeginsWord (atStart : Bool) (text : Text) (char : Char) : Prop :=
  isAlphanumeric char ∧ ∃ before gap after, text = before ++ gap ++ char :: after ∧
    (∀ other ∈ gap, ¬ isAlphanumeric other) ∧
    (before = [] ∧ atStart ∨ ∃ separator ∈ gap, separatesWords separator)

theorem not_beginsWord_nil {atStart : Bool} {char : Char} : ¬ BeginsWord atStart [] char := by
  rintro ⟨_, before, gap, after, whole, _⟩
  simp at whole

theorem beginsWord_cons_of_isAlphanumeric {atStart : Bool} {first char : Char} {rest : Text}
    (alphanumeric : isAlphanumeric first) :
    BeginsWord atStart (first :: rest) char ↔
      atStart ∧ char = first ∨ BeginsWord false rest char := by
  constructor
  · rintro ⟨isChar, before, gap, after, whole, inGap, begins⟩
    cases before with
    | nil =>
        cases gap with
        | nil =>
            cases whole
            exact .inl ⟨by simpa using begins, rfl⟩
        | cons other gap =>
            cases whole
            exact absurd alphanumeric (inGap first List.mem_cons_self)
    | cons head before =>
        cases whole
        refine .inr ⟨isChar, before, gap, after, rfl, inGap, .inr ?_⟩
        simpa using begins
  · rintro (⟨starts, rfl⟩ | ⟨isChar, before, gap, after, rfl, inGap, begins⟩)
    · exact ⟨alphanumeric, [], [], rest, rfl, by simp, .inl ⟨rfl, starts⟩⟩
    · refine ⟨isChar, first :: before, gap, after, rfl, inGap, .inr ?_⟩
      simpa using begins

theorem beginsWord_cons_of_not_isAlphanumeric {atStart : Bool} {first char : Char} {rest : Text}
    (dropped : ¬ isAlphanumeric first) :
    BeginsWord atStart (first :: rest) char ↔
      BeginsWord (atStart || separatesWords first) rest char := by
  constructor
  · rintro ⟨isChar, before, gap, after, whole, inGap, begins⟩
    cases before with
    | nil =>
        cases gap with
        | nil =>
            cases whole
            exact absurd isChar dropped
        | cons other gap =>
            cases whole
            refine ⟨isChar, [], gap, after, rfl, (List.forall_mem_cons.mp inGap).2, ?_⟩
            simpa [or_assoc] using begins
    | cons head before =>
        cases whole
        refine ⟨isChar, before, gap, after, rfl, inGap, .inr ?_⟩
        simpa using begins
  · rintro ⟨isChar, before, gap, after, rfl, inGap, begins⟩
    cases before with
    | nil =>
        refine ⟨isChar, [], first :: gap, after, rfl, List.forall_mem_cons.mpr ⟨dropped, inGap⟩, ?_⟩
        simpa [or_assoc] using begins
    | cons head before =>
        refine ⟨isChar, first :: head :: before, gap, after, rfl, inGap, .inr ?_⟩
        simpa using begins

/-- Words that are run together have a mark exactly if the capital of one of them has. -/
theorem forall_mem_joinWords_iff {atStart : Bool} {text : Text} :
    (∀ char ∈ joinWords atStart text, continuesName char) ↔
      ∀ char, BeginsWord atStart text char → char ∉ markedCapitals := by
  induction text generalizing atStart with
  | nil => simp [joinWords, not_beginsWord_nil]
  | cons first rest ih =>
      rw [joinWords]
      split
      · rename_i alphanumeric
        have unmarked : (∀ char ∈ uppercase first, continuesName char) ↔
            first ∉ markedCapitals := by
          rw [mem_markedCapitals_iff alphanumeric]
          simp
        simp only [List.forall_mem_append, ih, beginsWord_cons_of_isAlphanumeric alphanumeric,
          or_imp, forall_and]
        refine and_congr_left' ?_
        cases atStart with
        | true => simp [unmarked]
        | false => simp [continuesName_of_isAlphanumeric alphanumeric]
      · rename_i dropped
        simp only [ih, beginsWord_cons_of_not_isAlphanumeric dropped]

/-! ## Names -/

theorem isIdentifier_cons_iff {first : Char} {rest : Text} (alphabetic : isAlphabetic first) :
    isIdentifier (first :: rest) = true ↔ ∀ char ∈ first :: rest, continuesName char := by
  have begins : beginsName first := by rw [beginsName, alphabetic, Bool.true_or, Bool.true_or]
  have continues :=
    continuesName_of_isAlphanumeric (isAlphanumeric_of_isAlphabetic alphabetic)
  simp [isIdentifier, begins, continues]

/-- What follows the characters of a text that no name can begin with. -/
def fromFirstLetter (text : Text) : Text := text.dropWhile (!isAlphabetic ·)

theorem isIdentifier_joinWords_iff (text : Text) :
    (joinWords true (fromFirstLetter text) = [] ∨
        isIdentifier (joinWords true (fromFirstLetter text))) ↔
      ∀ char, BeginsWord true (fromFirstLetter text) char → char ∉ markedCapitals := by
  rw [← forall_mem_joinWords_iff]
  cases kept : fromFirstLetter text with
  | nil => simp [joinWords]
  | cons first rest =>
      have alphabetic : isAlphabetic first := by
        have fails := List.head?_dropWhile_not (!isAlphabetic ·) text
        rw [← fromFirstLetter, kept] at fails
        simpa using fails
      obtain ⟨upper, others, isUpper, letter⟩ := exists_uppercase_of_isAlphabetic alphabetic
      have joined : joinWords true (first :: rest) = upper :: (others ++ joinWords false rest) := by
        rw [joinWords, if_pos (isAlphanumeric_of_isAlphabetic alphabetic), if_pos rfl, isUpper,
          List.cons_append]
      rw [joined, isIdentifier_cons_iff letter]
      simp

theorem isIdentifier_append_iff {name ending : Text} (endsName : isIdentifier ending) :
    isIdentifier (name ++ ending) = true ↔ name = [] ∨ isIdentifier name := by
  have continues : ∀ char ∈ ending, continuesName char := by
    cases ending with
    | nil => exact fun char member => nomatch member
    | cons first rest =>
        simp only [isIdentifier, beginsName, Bool.and_eq_true, List.all_eq_true] at endsName
        refine List.forall_mem_cons.mpr ⟨?_, endsName.2⟩
        simp only [continuesName, isAlphanumeric, Bool.or_eq_true] at endsName ⊢
        tauto
  cases name with
  | nil => simpa using endsName
  | cons first rest =>
      simp only [List.cons_append, isIdentifier, List.all_append, Bool.and_eq_true,
        List.all_eq_true.mpr continues, and_true, reduceCtorEq, false_or]

theorem ofPath_cases (path : Text) :
    path = stdinFilename ∧ ofPath path = [] ∨
      isIdentifier (capitalize (stem path)) ∧ ofPath path = capitalize (stem path) ∨
      ¬ isIdentifier (capitalize (stem path)) ∧
        ofPath path = joinWords true (fromFirstLetter (stem path)) := by
  unfold ofPath
  by_cases isStdin : path = stdinFilename
  · exact .inl ⟨isStdin, if_pos isStdin⟩
  · by_cases identifier : isIdentifier (capitalize (stem path))
    · exact .inr (.inl ⟨identifier, by simp only [if_neg isStdin, if_pos identifier]⟩)
    · refine .inr (.inr ⟨identifier, ?_⟩)
      simp only [if_neg isStdin, if_neg identifier, fromFirstLetter]

/--
**A component has no name, or an identifier by the test, exactly if its file name with a capital is
one or no word of the file name begins with a character whose capital has marks.**  The same decides
whether the name of the component function is an identifier by the test.  It is one word anyway.
-/
theorem isIdentifier_ofPath_iff (path : Text) :
    ((ofPath path = [] ∨ isIdentifier (ofPath path)) ↔
      isIdentifier (capitalize (stem path)) ∨
        ∀ char, BeginsWord true (fromFirstLetter (stem path)) char → char ∉ markedCapitals) ∧
    (isIdentifier (ofPath path ++ "__AstroComponent_".toList) = true ↔
      ofPath path = [] ∨ isIdentifier (ofPath path)) ∧
    (ofPath path ++ "__AstroComponent_".toList).isWord := by
  refine ⟨?_, isIdentifier_append_iff (by decide +kernel), isWord_ofPath_append path⟩
  rcases ofPath_cases path with ⟨rfl, none⟩ | ⟨identifier, kept⟩ | ⟨noIdentifier, joined⟩
  · -- The words of the file name of standard input begin with ASCII letters only.
    have unmarked : (fromFirstLetter (stem stdinFilename)).all fun char =>
        !isAlphanumeric char || (uppercase char).all continuesName := by
      decide +kernel
    refine iff_of_true (.inl none) (.inr ?_)
    rintro char ⟨alphanumeric, before, gap, after, whole, _⟩
    have continues := List.all_eq_true.mp unmarked char (by simp [whole])
    rw [mem_markedCapitals_iff alphanumeric]
    simpa [alphanumeric] using continues
  · rw [kept]
    exact iff_of_true (.inr identifier) (.inl identifier)
  · rw [joined, isIdentifier_joinWords_iff, or_iff_right noIdentifier]

/-- The capital of U+0390 is a letter with two marks, and a name with them is no identifier. -/
theorem not_isIdentifier_ofPath_marked :
    ¬ (ofPath "\u0390.astro".toList = [] ∨ isIdentifier (ofPath "\u0390.astro".toList)) := by
  decide +kernel

end ComponentName

end ComponentTsx
