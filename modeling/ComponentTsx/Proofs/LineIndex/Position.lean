import ComponentTsx.LineIndex
import ComponentTsx.Proofs.Text.Lines

/-!
# Positions count line feeds and UTF-16 units

The position of an offset is told by the text before it: its line is the number
of line feeds there, and its column is the UTF-16 length of what follows the
last of them (`Text.positionAt`).  The index of a text, which searches among the
lines of the text, gives this position for every offset
(`positionUtf16_ofText`).

Positions of character boundaries are in the order of the boundaries
(`Position.isBefore_after_append`), so no two of them share a position.
-/

namespace ComponentTsx

set_option autoImplicit false

/-! ## The text before an offset -/

namespace Text

/-- The characters of a text that end at an offset or before it. -/
def upTo (offset : Nat) : Text → Text
  | [] => []
  | char :: rest =>
      if char.utf8Size ≤ offset then char :: upTo (offset - char.utf8Size) rest else []

/-- The text before an offset, and the character after it that ends beyond the offset. -/
theorem exists_upTo_append (offset : Nat) (text : Text) :
    ∃ after beyond, text = text.upTo offset ++ after ∧
      offset = (text.upTo offset).byteLength + beyond ∧
      ∀ char rest, after = char :: rest → beyond < char.utf8Size := by
  induction text generalizing offset with
  | nil => exact ⟨[], offset, rfl, by simp [upTo], fun char rest none => nomatch none⟩
  | cons char text ih =>
      by_cases fits : char.utf8Size ≤ offset
      · obtain ⟨after, beyond, split, rest, next⟩ := ih (offset - char.utf8Size)
        refine ⟨after, beyond, ?_, ?_, next⟩
        · rw [upTo, if_pos fits, List.cons_append, ← split]
        · rw [upTo, if_pos fits, byteLength_cons]
          omega
      · refine ⟨char :: text, offset, ?_, ?_, ?_⟩
        · rw [upTo, if_neg fits, List.nil_append]
        · rw [upTo, if_neg fits, byteLength_nil, Nat.zero_add]
        · rintro _ _ ⟨rfl, rfl⟩
          omega

/-- The text before a character boundary. -/
@[simp] theorem upTo_append (before after : Text) :
    upTo before.byteLength (before ++ after) = before := by
  induction before with
  | nil =>
      cases after with
      | nil => rfl
      | cons char rest =>
          have := char.utf8Size_pos
          rw [List.nil_append, byteLength_nil, upTo, if_neg (by omega)]
  | cons char rest ih =>
      rw [List.cons_append, byteLength_cons, upTo, if_pos (Nat.le_add_right _ _),
        Nat.add_sub_cancel_left, ih]

end Text

/-! ## Positions -/

namespace Position

/-- The position right after a text. -/
def after (text : Text) : Position := ⟨text.count '\n', text.lastLine.utf16Length⟩

/-- Whether the first position comes before the second: by line, then by column. -/
def IsBefore (first second : Position) : Prop :=
  first.line < second.line ∨ first.line = second.line ∧ first.column < second.column

namespace IsBefore

variable {first second third : Position}

theorem le (before : first.IsBefore second) : first.le second = true := by
  simp only [Position.le, Bool.or_eq_true, Bool.and_eq_true, decide_eq_true_eq]
  rcases before with line | ⟨line, column⟩ <;> omega

theorem not_le (before : first.IsBefore second) : second.le first = false := by
  simp only [Position.le, Bool.or_eq_false_iff, Bool.and_eq_false_iff, decide_eq_false_iff_not]
  rcases before with line | ⟨line, column⟩ <;> omega

theorem ne (before : first.IsBefore second) : first ≠ second := by
  rintro rfl
  rcases before with line | ⟨_, column⟩ <;> omega

theorem trans_le (before : first.IsBefore second) (later : second.le third = true) :
    first.IsBefore third := by
  simp only [Position.le, Bool.or_eq_true, Bool.and_eq_true, decide_eq_true_eq] at later
  unfold IsBefore at *
  omega

end IsBefore

@[simp] theorem le_refl (position : Position) : position.le position = true := by
  simp [Position.le]

/-- Every character has a UTF-16 code unit. -/
theorem utf16Length_pos {text : Text} (nonempty : text ≠ []) : 0 < text.utf16Length := by
  cases text with
  | nil => exact absurd rfl nonempty
  | cons char rest =>
      have : 0 < Text.utf16Size char := by unfold Text.utf16Size; split <;> decide
      rw [Text.utf16Length]
      omega

/-- Characters without a line feed move the position along its line. -/
theorem after_append_of_notMem {line : Text} (noBreak : '\n' ∉ line) (text : Text) :
    after (text ++ line) =
      ⟨(after text).line, (after text).column + line.utf16Length⟩ := by
  simp [after, Text.lastLine_append_of_notMem noBreak, List.count_eq_zero.mpr noBreak]

/-- **A longer text ends at a later position.** -/
theorem isBefore_after_append (text : Text) {more : Text} (nonempty : more ≠ []) :
    (after text).IsBefore (after (text ++ more)) := by
  by_cases breaks : '\n' ∈ more
  · have := List.count_pos_iff.mpr breaks
    refine .inl ?_
    simp only [after, List.count_append]
    omega
  · have := utf16Length_pos nonempty
    rw [after_append_of_notMem breaks]
    exact .inr ⟨rfl, Nat.lt_add_of_pos_right this⟩

theorem le_after_append (text more : Text) : (after text).le (after (text ++ more)) = true := by
  by_cases empty : more = []
  · rw [empty, List.append_nil, le_refl]
  · exact (isBefore_after_append text empty).le

end Position

/--
The position of an offset: the number of line feeds before it, and the UTF-16 length of what follows
the last of them.  An offset past the end counts as the end, and an offset inside a character has
column zero.
-/
def Text.positionAt (text : Text) (offset : Nat) : Position :=
  let before := text.upTo offset
  if before.byteLength = min offset text.byteLength then .after before else ⟨before.count '\n', 0⟩

/-- The position of a character boundary. -/
@[simp] theorem Text.positionAt_append (before after : Text) :
    positionAt (before ++ after) before.byteLength = .after before := by
  rw [positionAt, upTo_append, byteLength_append,
    if_pos (Nat.min_eq_left (Nat.le_add_right _ _)).symm]

/-- Whether an offset is the end of a leading part of a text: a character boundary. -/
def Text.IsBoundary (text : Text) (offset : Nat) : Prop :=
  ∃ before after, text = before ++ after ∧ offset = before.byteLength

/-- Of two leading parts of a text, the one with fewer bytes begins the other. -/
theorem Text.exists_append_of_byteLength_le {first rest second more : Text}
    (same : first ++ rest = second ++ more) (order : first.byteLength ≤ second.byteLength) :
    ∃ between, second = first ++ between := by
  rcases List.append_eq_append_iff.mp same with ⟨between, rfl, _⟩ | ⟨between, rfl, _⟩
  · exact ⟨between, rfl⟩
  · rw [byteLength_append] at order
    have empty : between = [] := by
      by_contra nonempty
      have := byteLength_pos_iff.mpr nonempty
      omega
    exact ⟨[], by rw [empty, List.append_nil, List.append_nil]⟩

/-- A boundary inside the middle of three parts cuts that part. -/
theorem Text.IsBoundary.exists_cut {before part after : Text} {offset : Nat}
    (boundary : IsBoundary (before ++ part ++ after) offset) (reached : before.byteLength ≤ offset)
    (short : offset < before.byteLength + part.byteLength) :
    ∃ head tail, part = head ++ tail ∧ tail ≠ [] ∧ offset = byteLength (before ++ head) := by
  obtain ⟨leading, rest, split, rfl⟩ := boundary
  rw [← byteLength_append] at short
  obtain ⟨head, rfl⟩ := exists_append_of_byteLength_le
    ((List.append_assoc _ _ _).symm.trans split) reached
  obtain ⟨tail, whole⟩ := exists_append_of_byteLength_le split.symm short.le
  rw [List.append_assoc] at whole
  obtain rfl := List.append_cancel_left whole
  refine ⟨head, tail, rfl, ?_, rfl⟩
  rintro rfl
  rw [List.append_nil] at short
  exact Nat.lt_irrefl _ short

/-- **Positions of character boundaries are in the order of the boundaries.** -/
theorem Text.isBefore_positionAt {text : Text} {first second : Nat} (isFirst : text.IsBoundary first)
    (isSecond : text.IsBoundary second) (order : first < second) :
    (text.positionAt first).IsBefore (text.positionAt second) := by
  obtain ⟨before, after, split, rfl⟩ := isFirst
  obtain ⟨longer, rest, rfl, rfl⟩ := isSecond
  rw [positionAt_append, split, positionAt_append]
  obtain ⟨more, rfl⟩ := exists_append_of_byteLength_le split.symm order.le
  refine Position.isBefore_after_append before ?_
  rintro rfl
  rw [List.append_nil] at order
  exact Nat.lt_irrefl _ order

theorem Text.le_positionAt {text : Text} {first second : Nat} (isFirst : text.IsBoundary first)
    (isSecond : text.IsBoundary second) (order : first ≤ second) :
    (text.positionAt first).le (text.positionAt second) = true := by
  rcases Nat.eq_or_lt_of_le order with rfl | less
  · exact Position.le_refl _
  · exact (isBefore_positionAt isFirst isSecond less).le

/-- Where the line of an offset begins. -/
def Text.lineStartOf (text : Text) (offset : Nat) : Nat :=
  (text.upTo offset).byteLength - (text.upTo offset).lastLine.byteLength

/-- The later of where a text begins and where the line begins that it ends in. -/
theorem Text.max_lineStartOf_append {whole line : Text} (noBreak : '\n' ∉ line)
    (lines : whole = [] ∨ ∃ body, whole = body ++ ['\n']) (before after : Text) :
    max before.byteLength
        (lineStartOf (before ++ whole ++ line ++ after) (byteLength (before ++ whole ++ line))) =
      byteLength (before ++ whole) := by
  rw [lineStartOf, upTo_append]
  rcases lines with rfl | ⟨body, rfl⟩
  · rw [List.append_nil, lastLine_append_of_notMem noBreak, byteLength_append, byteLength_append]
    omega
  · rw [lastLine_eq_of_append noBreak (.inr ⟨before ++ body, (List.append_assoc _ _ _).symm⟩)]
    simp only [byteLength_append]
    omega

/-! ## The lines of an index -/

namespace Line

/-- Lines begin no earlier than the first of them. -/
theorem le_start_of_mem_linesFrom {start : Nat} {earlier text : Text} {line : Line}
    (member : line ∈ linesFrom start earlier text) : start ≤ line.start := by
  induction text generalizing start earlier with
  | nil =>
      rw [List.mem_singleton.mp member]
  | cons char rest ih =>
      rw [linesFrom] at member
      split at member
      · rcases List.mem_cons.mp member with rfl | later
        · exact Nat.le_refl _
        · exact Nat.le_of_add_right_le (ih later)
      · exact ih member

/-- The later lines begin right after the line feeds. -/
theorem map_start_linesFrom (start : Nat) (earlier text : Text) :
    (linesFrom start earlier text).map (·.start) =
      start :: (Text.lineStarts text).map (start + Text.byteLength earlier.reverse + ·) := by
  induction text generalizing start earlier with
  | nil => rfl
  | cons char rest ih =>
      by_cases isBreak : char = '\n'
      · subst isBreak
        simp [linesFrom, Text.lineStarts, ih, Function.comp_def, Nat.add_assoc]
      · simp [linesFrom, Text.lineStarts, ih, isBreak, Function.comp_def, Nat.add_assoc]

/-- The lines through a line feed are over where the next line begins. -/
theorem linesFrom_append_break (start : Nat) (earlier body rest : Text) :
    ∃ firsts, linesFrom start earlier (body ++ ['\n'] ++ rest) =
        firsts ++ linesFrom (start + Text.byteLength (earlier.reverse ++ (body ++ ['\n']))) [] rest ∧
      firsts.length = (body ++ ['\n']).count '\n' ∧
      ∀ line ∈ firsts, line.start ≤ start + Text.byteLength (earlier.reverse ++ body) := by
  induction body generalizing start earlier with
  | nil =>
      refine ⟨[⟨start, ('\n' :: earlier).reverse⟩], ?_, rfl, ?_⟩
      · simp [linesFrom]
      · simp
  | cons char body ih =>
      by_cases isBreak : char = '\n'
      · subst isBreak
        obtain ⟨firsts, split, count, starts⟩ := ih
          (start + Text.byteLength ('\n' :: earlier).reverse) []
        refine ⟨⟨start, ('\n' :: earlier).reverse⟩ :: firsts, ?_, ?_, ?_⟩
        · simp only [List.cons_append, linesFrom, if_pos, split]
          simp [Nat.add_assoc]
        · simp only [List.length_cons, count, List.cons_append, List.count_cons_self]
        · refine List.forall_mem_cons.mpr ⟨Nat.le_add_right _ _, fun line member => ?_⟩
          have := starts line member
          simp only [List.reverse_cons, List.reverse_nil, List.nil_append, Text.byteLength_append,
            Text.byteLength_cons, Text.byteLength_nil] at this ⊢
          omega
      · obtain ⟨firsts, split, count, starts⟩ := ih start (char :: earlier)
        refine ⟨firsts, ?_, ?_, ?_⟩
        · simp only [List.cons_append, linesFrom, if_neg isBreak, split]
          simp
        · rw [count, List.cons_append, List.count_cons_of_ne isBreak]
        · intro line member
          have := starts line member
          simpa using this

/-- Whole lines are over where the next line begins. -/
theorem linesFrom_append_whole {earlier : Text} (rest : Text)
    (whole : earlier = [] ∨ ∃ body, earlier = body ++ ['\n']) :
    ∃ firsts, linesFrom 0 [] (earlier ++ rest) = firsts ++ linesFrom earlier.byteLength [] rest ∧
      firsts.length = earlier.count '\n' ∧ ∀ line ∈ firsts, line.start ≤ earlier.byteLength := by
  rcases whole with rfl | ⟨body, rfl⟩
  · exact ⟨[], rfl, rfl, fun line none => nomatch none⟩
  · obtain ⟨firsts, split, count, starts⟩ := linesFrom_append_break 0 [] body rest
    refine ⟨firsts, by simpa using split, count, fun line member => ?_⟩
    have := starts line member
    simp only [List.reverse_nil, List.nil_append, Nat.zero_add, Text.byteLength_append] at this ⊢
    omega

/-- Characters before a line feed belong to the line that has begun. -/
theorem linesFrom_append_of_notMem {line : Text} (noBreak : '\n' ∉ line) (start : Nat)
    (earlier rest : Text) :
    linesFrom start earlier (line ++ rest) = linesFrom start (line.reverse ++ earlier) rest := by
  induction line generalizing earlier with
  | nil => rfl
  | cons char line ih =>
      rw [List.mem_cons, not_or] at noBreak
      rw [List.cons_append, linesFrom, if_neg (Ne.symm noBreak.1), ih noBreak.2, List.reverse_cons,
        List.append_assoc, List.singleton_append]

/-- The first line goes on to its line feed, and the others begin after it. -/
theorem linesFrom_eq_cons (start : Nat) (earlier text : Text) :
    ∃ more later, linesFrom start earlier text = ⟨start, earlier.reverse ++ more⟩ :: later ∧
      (text = [] ∧ more = [] ∧ later = [] ∨
        ∃ char tail, text.head? = some char ∧ more = char :: tail ∧
          ∀ line ∈ later, start + Text.byteLength (earlier.reverse ++ more) ≤ line.start) := by
  induction text generalizing earlier with
  | nil => exact ⟨[], [], by simp [linesFrom], .inl ⟨rfl, rfl, rfl⟩⟩
  | cons char text ih =>
      by_cases isBreak : char = '\n'
      · subst isBreak
        refine ⟨['\n'], linesFrom (start + Text.byteLength (earlier.reverse ++ ['\n'])) [] text, ?_,
          .inr ⟨_, [], rfl, rfl, fun line member => le_start_of_mem_linesFrom member⟩⟩
        simp [linesFrom]
      · obtain ⟨more, later, split, none | ⟨_, _, _, _, starts⟩⟩ := ih (char :: earlier)
        · obtain ⟨_, rfl, rfl⟩ := none
          refine ⟨[char], [], ?_, .inr ⟨char, [], rfl, rfl, fun line none => nomatch none⟩⟩
          simp [linesFrom, isBreak, split]
        · refine ⟨char :: more, later, ?_, .inr ⟨char, more, rfl, rfl, fun line member => ?_⟩⟩
          · simp [linesFrom, isBreak, split]
          · simpa using starts line member

end Line

/-! ## Counting the units of a line -/

namespace Text

theorem utf16Before_append (counted : Nat) (before after : Text) (more : Nat) :
    utf16Before counted (before.byteLength + more) (before ++ after) =
      utf16Before (counted + before.utf16Length) more after := by
  induction before generalizing counted with
  | nil => simp [utf16Length]
  | cons char rest ih =>
      have := char.utf8Size_pos
      rw [List.cons_append, utf16Before, byteLength_cons, if_neg (by omega), if_pos (by omega),
        show char.utf8Size + byteLength rest + more - char.utf8Size = byteLength rest + more by omega,
        ih, utf16Length, Nat.add_assoc]

@[simp] theorem utf16Before_zero (counted : Nat) (text : Text) :
    utf16Before counted 0 text = counted := by
  cases text with
  | nil => rfl
  | cons char rest => rw [utf16Before, if_pos rfl]

end Text

/-! ## Searching the line of an offset -/

namespace LineIndex

/-- The halving search finds the end of the lines that begin by an offset. -/
theorem firstAfter_eq {index : LineIndex} {offset : Nat} (count : Nat)
    (split : ∀ line < index.lineCount,
      (index.lineStart? line).any (· ≤ offset) = decide (line < count))
    {low high : Nat} (above : low ≤ count) (below : count ≤ high) (inside : high ≤ index.lineCount) :
    index.firstAfter offset low high = count := by
  fun_induction firstAfter index offset low high with
  | case1 low high open_ middle reached ih =>
      rw [split middle (by omega), decide_eq_true_eq] at reached
      exact ih (by omega) below inside
  | case2 low high open_ middle notReached ih =>
      rw [split middle (by omega), decide_eq_true_eq] at notReached
      exact ih above (by omega) (by omega)
  | case3 low high closed => omega

/-- The line of an offset is the one that begins by it and that later lines begin after. -/
theorem lineOf_eq {index : LineIndex} {offset : Nat} {firsts later : List Line} {line : Line}
    (lines : index.lines.toList = firsts ++ line :: later)
    (earlier : ∀ other ∈ firsts, other.start ≤ offset) (reached : line.start ≤ offset)
    (after : ∀ other ∈ later, offset < other.start) : index.lineOf offset = firsts.length := by
  have size : index.lineCount = firsts.length + (later.length + 1) := by
    rw [lineCount, ← Array.length_toList, lines, List.length_append, List.length_cons]
  rw [lineOf, firstAfter_eq (firsts.length + 1) ?_ (Nat.zero_le _) (by omega)
    (Nat.le_refl _), Nat.add_sub_cancel]
  intro place inside
  rw [lineStart?, ← Array.getElem?_toList, lines]
  rcases Nat.lt_trichotomy place firsts.length with before | rfl | beyond
  · rw [List.getElem?_append_left before, List.getElem?_eq_getElem before]
    have := earlier _ (List.getElem_mem before)
    simp only [Option.map_some, Option.any_some, decide_eq_decide]
    omega
  · rw [List.getElem?_append_right (Nat.le_refl _), Nat.sub_self]
    simp only [List.getElem?_cons_zero, Option.map_some, Option.any_some, decide_eq_decide]
    omega
  · obtain ⟨more, rfl⟩ := Nat.exists_eq_add_of_lt beyond
    have bound : more < later.length := by omega
    rw [List.getElem?_append_right (by omega),
      show firsts.length + more + 1 - firsts.length = more + 1 by omega, List.getElem?_cons_succ,
      List.getElem?_eq_getElem bound]
    have := after _ (List.getElem_mem bound)
    simp only [Option.map_some, Option.any_some, decide_eq_decide]
    omega

/-- The position of an offset in the line that it falls in. -/
theorem positionUtf16_eq {index : LineIndex} {offset : Nat} {firsts later : List Line} {line : Line}
    (lines : index.lines.toList = firsts ++ line :: later)
    (isLine : index.lineOf offset = firsts.length) :
    index.positionUtf16 offset =
      ⟨firsts.length, line.text.utf16Before 0 (offset - line.start)⟩ := by
  rw [positionUtf16, isLine, ← Array.getElem?_toList, lines,
    List.getElem?_append_right (Nat.le_refl _), Nat.sub_self, List.getElem?_cons_zero]
  rfl

/-- **The index of a text gives every offset its position.** -/
theorem positionUtf16_ofText (text : Text) (offset : Nat) :
    (ofText text).positionUtf16 offset = text.positionAt offset := by
  obtain ⟨after, beyond, split, place, next⟩ := Text.exists_upTo_append offset text
  rw [Text.positionAt]
  generalize text.upTo offset = before at split place
  -- The text is whole lines, the begun line, and what follows the offset.
  obtain ⟨earlier, isBefore, whole⟩ := before.exists_lastLine_append
  have noBreak := before.break_notMem_lastLine
  obtain ⟨firsts, lines, count, starts⟩ :=
    Line.linesFrom_append_whole (before.lastLine ++ after) whole
  obtain ⟨more, later, line, rest⟩ :=
    Line.linesFrom_eq_cons earlier.byteLength (before.lastLine.reverse ++ []) after
  rw [Line.linesFrom_append_of_notMem noBreak, line, ← List.append_assoc, ← isBefore, ← split,
    List.append_nil, List.reverse_reverse] at lines
  rw [List.append_nil, List.reverse_reverse] at rest
  have feeds : firsts.length = before.count '\n' := by
    rw [count]
    conv_rhs => rw [isBefore, List.count_append, List.count_eq_zero.mpr noBreak, Nat.add_zero]
  have bytes := congrArg Text.byteLength isBefore
  rw [Text.byteLength_append] at bytes
  have isLine : (ofText text).lineOf offset = firsts.length := by
    refine lineOf_eq lines (fun other member => ?_) (by simp only; omega) fun other member => ?_
    · have := starts other member
      omega
    · rcases rest with ⟨_, _, rfl⟩ | ⟨char, tail, isNext, rfl, beginsAfter⟩
      · cases member
      · obtain ⟨rest, rfl⟩ := List.head?_eq_some_iff.mp isNext
        have := beginsAfter other member
        have := next char rest rfl
        rw [Text.byteLength_append, Text.byteLength_cons] at *
        omega
  have units : (before.lastLine ++ more).utf16Before 0 (offset - earlier.byteLength) =
      more.utf16Before before.lastLine.utf16Length beyond := by
    rw [show offset - earlier.byteLength = before.lastLine.byteLength + beyond by omega,
      Text.utf16Before_append, Nat.zero_add]
  rw [positionUtf16_eq lines isLine, units, feeds, split, Text.byteLength_append]
  rcases rest with ⟨rfl, rfl, _⟩ | ⟨char, tail, isNext, rfl, _⟩
  · rw [if_pos (by rw [Text.byteLength_nil]; omega)]
    rfl
  · obtain ⟨rest, rfl⟩ := List.head?_eq_some_iff.mp isNext
    have short := next char rest rfl
    rw [Text.byteLength_cons]
    rcases Nat.eq_zero_or_pos beyond with rfl | inside
    · rw [if_pos (by omega), Text.utf16Before_zero]
      rfl
    · rw [if_neg (by omega), Text.utf16Before, if_neg (by omega), if_neg (by omega)]

end LineIndex

end ComponentTsx
