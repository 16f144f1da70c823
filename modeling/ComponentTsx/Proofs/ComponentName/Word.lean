import ComponentTsx.ComponentName
import ComponentTsx.Proofs.Token.Words

/-!
# Component names as words

To the lexer any character beyond ASCII may stand in an identifier.  Of the
others, a component name has letters, digits, `_` and `$` only, and no digit
first: upper case leads from letters to letters (`uppercase_cases`).  So the
name of a component function is one word, whatever file it is named after.
-/

namespace ComponentTsx

set_option autoImplicit false

/-! ## Characters of words -/

theorem beginsIdentifier_of_toNat {char : Char}
    (inside : 0x41 ≤ char.toNat ∧ char.toNat ≤ 0x5A ∨ 0x61 ≤ char.toNat ∧ char.toNat ≤ 0x7A ∨
      0x80 ≤ char.toNat) : beginsIdentifier char := by
  unfold beginsIdentifier Char.isAlpha Char.isUpper Char.isLower
  simp only [Bool.or_eq_true, Bool.and_eq_true, decide_eq_true_eq, ge_iff_le,
    UInt32.le_iff_toNat_le]
  rcases inside with capital | small | beyond
  · exact .inl (.inl (.inl (.inl capital)))
  · exact .inl (.inl (.inl (.inr small)))
  · exact .inr beyond

theorem continuesIdentifier_of_beginsIdentifier {char : Char} (begins : beginsIdentifier char) :
    continuesIdentifier char := by
  rw [continuesIdentifier, begins, Bool.true_or]

theorem CodeRanges.exists_of_contains {ranges : CodeRanges} {code : Nat}
    (contained : ranges.contains code) : ∃ range ∈ ranges, range.1 ≤ code ∧ code ≤ range.2 := by
  obtain ⟨range, member, inside⟩ := List.any_eq_true.mp contained
  rw [Bool.and_eq_true, decide_eq_true_eq, decide_eq_true_eq] at inside
  exact ⟨range, member, inside⟩

theorem beginsIdentifier_of_isAlphabetic {char : Char} (alphabetic : isAlphabetic char) :
    beginsIdentifier char := by
  have ranges : ∀ range ∈ alphabeticRanges,
      range = (0x41, 0x5A) ∨ range = (0x61, 0x7A) ∨ 0x80 ≤ range.1 := by
    decide +kernel
  obtain ⟨range, member, above, below⟩ := CodeRanges.exists_of_contains alphabetic
  refine beginsIdentifier_of_toNat ?_
  rcases ranges range member with rfl | rfl | beyond
  · exact .inl ⟨above, below⟩
  · exact .inr (.inl ⟨above, below⟩)
  · exact .inr (.inr (Nat.le_trans beyond above))

theorem continuesIdentifier_of_isAlphanumeric {char : Char} (alphanumeric : isAlphanumeric char) :
    continuesIdentifier char := by
  have ranges : ∀ range ∈ numericRanges, range = (0x30, 0x39) ∨ 0x80 ≤ range.1 := by
    decide +kernel
  rw [isAlphanumeric, Bool.or_eq_true] at alphanumeric
  rcases alphanumeric with alphabetic | numeric
  · exact continuesIdentifier_of_beginsIdentifier (beginsIdentifier_of_isAlphabetic alphabetic)
  · obtain ⟨range, member, above, below⟩ := CodeRanges.exists_of_contains numeric
    rcases ranges range member with rfl | beyond
    · have isDigit : char.isDigit := by
        unfold Char.isDigit
        simp only [Bool.and_eq_true, decide_eq_true_eq, ge_iff_le, UInt32.le_iff_toNat_le]
        exact ⟨above, below⟩
      rw [continuesIdentifier, isDigit, Bool.or_true]
    · exact continuesIdentifier_of_beginsIdentifier
        (beginsIdentifier_of_toNat (.inr (.inr (Nat.le_trans beyond above))))

/-! ## Upper case -/

/-- Whether the upper-case characters of a run are all ASCII capitals, or all beyond ASCII. -/
def CaseRun.yieldsLetters (run : CaseRun) : Bool :=
  let first := (run.first : Int) + run.distance
  let last := (run.last : Int) + run.distance
  decide (0x41 ≤ first ∧ last ≤ 0x5A) || decide (0x80 ≤ first ∧ last < 0xD800) ||
    decide (0xE000 ≤ first ∧ last < 0x110000)

/-- The upper case of a character of a run is the character at the run's distance. -/
theorem CaseRun.toNat_of_contains {run : CaseRun} {code : Nat} (yields : run.yieldsLetters)
    (contained : run.contains code) :
    (Char.ofNat ((code : Int) + run.distance).toNat).toNat =
      ((code : Int) + run.distance).toNat := by
  simp only [contains, Bool.and_eq_true, decide_eq_true_eq] at contained
  simp only [yieldsLetters, Bool.or_eq_true, decide_eq_true_eq] at yields
  have isValid : Nat.isValidChar ((code : Int) + run.distance).toNat := by
    unfold Nat.isValidChar
    omega
  rw [Char.ofNat, dif_pos isValid]
  rfl

theorem CaseRun.yieldsLetters_of_mem {run : CaseRun} (member : run ∈ caseRuns) :
    run.yieldsLetters := by
  have runs : ∀ run ∈ caseRuns, run.yieldsLetters := by decide +kernel
  exact runs run member

theorem CaseRun.beginsIdentifier_of_contains {run : CaseRun} {code : Nat}
    (yields : run.yieldsLetters) (contained : run.contains code) :
    beginsIdentifier (Char.ofNat ((code : Int) + run.distance).toNat) := by
  refine beginsIdentifier_of_toNat ?_
  rw [toNat_of_contains yields contained]
  simp only [contains, Bool.and_eq_true, decide_eq_true_eq] at contained
  simp only [yieldsLetters, Bool.or_eq_true, decide_eq_true_eq] at yields
  omega

/-- The upper case of a character is listed for it, or follows from a run, or is the character. -/
theorem uppercase_eq (char : Char) :
    (∃ codes, (char.toNat, codes) ∈ caseExpansions ∧ uppercase char = codes.map Char.ofNat) ∨
      (∃ run ∈ caseRuns, run.contains char.toNat ∧
        uppercase char = [Char.ofNat ((char.toNat : Int) + run.distance).toNat]) ∨
      uppercase char = [char] := by
  unfold uppercase
  split
  · rename_i codes found
    obtain ⟨before, after, whole, _⟩ := List.lookup_eq_some_iff.mp found
    exact .inl ⟨codes, by simp [whole], rfl⟩
  · split
    · rename_i run found
      have contained : run.contains char.toNat := by simpa using List.find?_some found
      exact .inr (.inl ⟨run, List.mem_of_find?_eq_some found, contained, rfl⟩)
    · exact .inr (.inr rfl)

/-- The upper case of a character is the character, or one or more that begin identifiers. -/
theorem uppercase_cases (char : Char) :
    uppercase char = [char] ∨
      uppercase char ≠ [] ∧ ∀ other ∈ uppercase char, beginsIdentifier other := by
  have expansions : ∀ expansion ∈ caseExpansions,
      expansion.2 ≠ [] ∧ ∀ code ∈ expansion.2, beginsIdentifier (Char.ofNat code) := by
    decide +kernel
  rcases uppercase_eq char with ⟨codes, listed, same⟩ | ⟨run, member, contained, same⟩ | same
  · obtain ⟨nonempty, letters⟩ := expansions (char.toNat, codes) listed
    rw [same]
    refine .inr ⟨mt List.map_eq_nil_iff.mp nonempty, fun other member => ?_⟩
    obtain ⟨code, isCode, rfl⟩ := List.mem_map.mp member
    exact letters code isCode
  · rw [same]
    refine .inr ⟨List.cons_ne_nil _ _, fun other isOther => ?_⟩
    rw [List.mem_singleton.mp isOther]
    exact CaseRun.beginsIdentifier_of_contains (CaseRun.yieldsLetters_of_mem member) contained
  · exact .inl same

theorem isWord_uppercase {char : Char} (begins : beginsIdentifier char) :
    (uppercase char).isWord := by
  rcases uppercase_cases char with same | ⟨nonempty, letters⟩
  · rw [same]
    exact Text.isWord_cons.mpr ⟨begins, fun _ none => nomatch none⟩
  · obtain ⟨first, rest, whole⟩ := List.exists_cons_of_ne_nil nonempty
    rw [whole] at letters ⊢
    refine Text.isWord_cons.mpr ⟨letters first List.mem_cons_self, fun other member => ?_⟩
    exact continuesIdentifier_of_beginsIdentifier (letters other (List.mem_cons_of_mem _ member))

theorem continuesIdentifier_uppercase {char : Char} (continues : continuesIdentifier char)
    {other : Char} (member : other ∈ uppercase char) : continuesIdentifier other := by
  rcases uppercase_cases char with same | ⟨_, letters⟩
  · rw [same, List.mem_singleton] at member
    rwa [member]
  · exact continuesIdentifier_of_beginsIdentifier (letters other member)

/-! ## Names -/

namespace ComponentName

theorem isWord_of_isIdentifier {name : Text} (identifier : isIdentifier name) : name.isWord := by
  cases name with
  | nil => cases identifier
  | cons first rest =>
      rw [isIdentifier, Bool.and_eq_true, List.all_eq_true] at identifier
      obtain ⟨begins, continues⟩ := identifier
      have marks : ∀ char, char = '_' ∨ char = '$' → beginsIdentifier char := by
        rintro char (rfl | rfl) <;> decide
      simp only [beginsName, continuesName, Bool.or_eq_true, decide_eq_true_eq, or_assoc]
        at begins continues
      refine Text.isWord_cons.mpr ⟨?_, fun char member => ?_⟩
      · exact begins.elim beginsIdentifier_of_isAlphabetic (marks first)
      · exact (continues char member).elim continuesIdentifier_of_isAlphanumeric fun isMark =>
          continuesIdentifier_of_beginsIdentifier (marks char isMark)

theorem continuesIdentifier_of_mem_joinWords {capital : Bool} {text : Text} {char : Char}
    (member : char ∈ joinWords capital text) : continuesIdentifier char := by
  induction text generalizing capital with
  | nil => cases member
  | cons first rest ih =>
      rw [joinWords] at member
      split at member
      · rename_i alphanumeric
        have continues := continuesIdentifier_of_isAlphanumeric alphanumeric
        rcases List.mem_append.mp member with here | later
        · split at here
          · exact continuesIdentifier_uppercase continues here
          · rwa [List.mem_singleton.mp here]
        · exact ih later
      · exact ih member

/-- The name of a component function is one word. -/
theorem isWord_ofPath_append (path : Text) :
    (ofPath path ++ "__AstroComponent_".toList).isWord := by
  have mark : Text.isWord "__AstroComponent_".toList := by decide
  have append {name : Text} (isWord : name.isWord) :
      (name ++ "__AstroComponent_".toList).isWord :=
    Text.isWord_append isWord fun _ => Text.continuesIdentifier_of_mem mark
  unfold ofPath
  simp only
  split
  · exact mark
  split
  · exact append (isWord_of_isIdentifier ‹_›)
  cases kept : (stem path).dropWhile (!isAlphabetic ·) with
  | nil => exact mark
  | cons first rest =>
      have alphabetic : isAlphabetic first := by
        have fails := List.head?_dropWhile_not (!isAlphabetic ·) (stem path)
        rw [kept] at fails
        simpa using fails
      have alphanumeric : isAlphanumeric first := by rw [isAlphanumeric, alphabetic, Bool.true_or]
      refine append ?_
      rw [joinWords, if_pos alphanumeric, if_pos rfl]
      exact Text.isWord_append (isWord_uppercase (beginsIdentifier_of_isAlphabetic alphabetic))
        fun _ => continuesIdentifier_of_mem_joinWords

end ComponentName

end ComponentTsx
