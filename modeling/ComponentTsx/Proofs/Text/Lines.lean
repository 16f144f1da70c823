import ComponentTsx.Text.WhiteSpace
import Mathlib.Data.List.Induction
import Mathlib.Data.List.TakeWhile

/-!
# The lines of a text

A text consists of a first line and of the lines after its first line feed
(`splitOn_eq_cons`).  The lines do not hold their line feeds.  Where two texts
are joined by a line feed, their lines are joined as well.

Counted from the other end, a text consists of whole lines and of a last line
(`exists_lastLine_append`), and its later lines begin right after its line feeds
(`mem_lineStarts_iff`).
-/

namespace ComponentTsx.Text

set_option autoImplicit false

/-! ## The first line and the later ones -/

/-- The lines of a text after its first line feed, without their line feeds. -/
def laterLines (text : Text) : List Text := (text.splitOn '\n').tail

@[simp] theorem laterLines_nil : laterLines [] = [] := rfl

/-- The lines of a text are the first one and the later ones. -/
theorem splitOn_eq_cons (text : Text) :
    text.splitOn '\n' = text.firstLine :: text.laterLines := by
  induction text with
  | nil => rfl
  | cons char rest ih =>
      rw [laterLines, List.splitOn_cons_eq_if_modifyHead]
      by_cases isBreak : char = '\n'
      · simp [firstLine, isBreak]
      · simp [firstLine, isBreak, ih]

/-- A character before the first line feed changes no later line. -/
theorem laterLines_cons_of_ne {char : Char} (noBreak : char ≠ '\n') (rest : Text) :
    laterLines (char :: rest) = rest.laterLines := by
  rw [laterLines, List.splitOn_cons_eq_if_modifyHead, if_neg (by simpa using noBreak),
    splitOn_eq_cons, List.modifyHead_cons, List.tail_cons]

/-- The lines of two texts that a line feed joins. -/
theorem laterLines_append_break (first second : Text) :
    laterLines (first ++ '\n' :: second) =
      first.laterLines ++ second.firstLine :: second.laterLines := by
  rw [laterLines, List.splitOn_append_cons_self, splitOn_eq_cons first, splitOn_eq_cons second,
    List.cons_append, List.tail_cons]

theorem laterLines_cons_break (rest : Text) :
    laterLines ('\n' :: rest) = rest.firstLine :: rest.laterLines :=
  laterLines_append_break [] rest

/-- The first line is over at the first line feed. -/
theorem firstLine_append_break (line rest : Text) :
    firstLine (line ++ '\n' :: rest) = line.firstLine := by
  have lines := List.splitOn_append_cons_self (a := '\n') line rest
  rw [splitOn_eq_cons, splitOn_eq_cons line, List.cons_append] at lines
  exact (List.cons.inj lines).1

/-- The first line has no line feed. -/
theorem ne_break_of_mem_firstLine {text : Text} {char : Char} (member : char ∈ text.firstLine) :
    char ≠ '\n' := by
  simpa using List.mem_takeWhile_imp member

/-- What follows the first line is nothing or begins with a line feed. -/
theorem exists_firstLine_append (text : Text) :
    ∃ after, text = text.firstLine ++ after ∧ (after = [] ∨ after.head? = some '\n') := by
  refine ⟨text.dropWhile (· ≠ '\n'), List.takeWhile_append_dropWhile.symm, ?_⟩
  induction text with
  | nil => exact .inl rfl
  | cons char rest ih =>
      by_cases isBreak : char = '\n'
      · exact .inr (by simp [isBreak])
      · simpa [isBreak] using ih

/-! ## The last line -/

/-- What follows the last line feed. -/
def lastLine (text : Text) : Text := (text.reverse.takeWhile (· ≠ '\n')).reverse

/-- Characters other than line feeds go on with the last line. -/
theorem lastLine_append_of_notMem {line : Text} (noBreak : '\n' ∉ line) (text : Text) :
    lastLine (text ++ line) = text.lastLine ++ line := by
  have continued : ∀ char ∈ line.reverse, decide (char ≠ '\n') = true := by
    intro char member
    exact decide_eq_true fun isBreak => noBreak (isBreak ▸ List.mem_reverse.mp member)
  rw [lastLine, List.reverse_append, List.takeWhile_append_of_pos continued, List.reverse_append,
    List.reverse_reverse, lastLine]

/-- A last line begins after a line feed. -/
@[simp] theorem lastLine_append_break (text : Text) : lastLine (text ++ ['\n']) = [] := by
  simp [lastLine]

theorem break_notMem_lastLine (text : Text) : '\n' ∉ text.lastLine := by
  intro member
  simpa using List.mem_takeWhile_imp (List.mem_reverse.mp member)

/-- A text is whole lines and a last line. -/
theorem exists_lastLine_append (text : Text) :
    ∃ earlier, text = earlier ++ text.lastLine ∧
      (earlier = [] ∨ ∃ body, earlier = body ++ ['\n']) := by
  induction text using List.reverseRecOn with
  | nil => exact ⟨[], rfl, .inl rfl⟩
  | append_singleton text char ih =>
      by_cases isBreak : char = '\n'
      · subst isBreak
        exact ⟨text ++ ['\n'], by simp, .inr ⟨text, rfl⟩⟩
      · obtain ⟨earlier, split, whole⟩ := ih
        refine ⟨earlier, ?_, whole⟩
        rw [lastLine_append_of_notMem (by simpa using Ne.symm isBreak), ← List.append_assoc, ← split]

/-- Whole lines before a last line do not belong to it. -/
theorem lastLine_eq_of_append {earlier line : Text} (noBreak : '\n' ∉ line)
    (whole : earlier = [] ∨ ∃ body, earlier = body ++ ['\n']) :
    lastLine (earlier ++ line) = line := by
  rw [lastLine_append_of_notMem noBreak]
  rcases whole with rfl | ⟨body, rfl⟩
  · rfl
  · rw [lastLine_append_break, List.nil_append]

/-! ## Where the later lines begin -/

/-- The offsets at which the later lines of a text begin, which are those right after line feeds. -/
def lineStarts : Text → List Nat
  | [] => []
  | char :: rest =>
      (if char = '\n' then [char.utf8Size] else []) ++ (lineStarts rest).map (char.utf8Size + ·)

theorem lineStarts_append (first second : Text) :
    lineStarts (first ++ second) =
      lineStarts first ++ (lineStarts second).map (byteLength first + ·) := by
  induction first with
  | nil => simp [lineStarts]
  | cons char rest ih => simp [lineStarts, ih, Function.comp_def, Nat.add_assoc]

/-- A line begins right after a line feed. -/
theorem mem_lineStarts_iff {text : Text} {offset : Nat} :
    offset ∈ lineStarts text ↔
      ∃ body rest, text = body ++ ['\n'] ++ rest ∧ offset = byteLength (body ++ ['\n']) := by
  constructor
  · intro member
    induction text generalizing offset with
    | nil => cases member
    | cons char text ih =>
        rcases List.mem_append.mp member with here | later
        · split at here
          · rename_i isBreak
            subst isBreak
            exact ⟨[], text, rfl, by simpa using here⟩
          · cases here
        · obtain ⟨start, isStart, rfl⟩ := List.mem_map.mp later
          obtain ⟨body, rest, rfl, rfl⟩ := ih isStart
          exact ⟨char :: body, rest, rfl, rfl⟩
  · rintro ⟨body, rest, rfl, rfl⟩
    rw [lineStarts_append, lineStarts_append]
    refine List.mem_append_left _ (List.mem_append_right _ ?_)
    simp [lineStarts]

/-- Later lines begin after the first character, and no later than the text ends. -/
theorem bounds_of_mem_lineStarts {text : Text} {offset : Nat} (member : offset ∈ lineStarts text) :
    0 < offset ∧ offset ≤ text.byteLength := by
  obtain ⟨body, rest, rfl, rfl⟩ := mem_lineStarts_iff.mp member
  refine ⟨byteLength_pos_iff.mpr (by simp), ?_⟩
  rw [byteLength_append (body ++ ['\n'])]
  exact Nat.le_add_right _ _

/-- Without a line feed there are no later lines. -/
theorem lineStarts_eq_nil {line : Text} (noBreak : '\n' ∉ line) : lineStarts line = [] := by
  refine List.eq_nil_iff_forall_not_mem.mpr fun offset member => ?_
  obtain ⟨body, rest, rfl, _⟩ := mem_lineStarts_iff.mp member
  exact noBreak (by simp)

/-- The beginnings of later lines are in order. -/
theorem pairwise_lineStarts (text : Text) : (lineStarts text).Pairwise (· < ·) := by
  induction text with
  | nil => exact List.Pairwise.nil
  | cons char rest ih =>
      refine List.pairwise_append.mpr ⟨?_, ?_, ?_⟩
      · split <;> simp
      · rw [List.pairwise_map]
        exact ih.imp (Nat.add_lt_add_left · _)
      · intro first isFirst later isLater
        obtain ⟨start, isStart, rfl⟩ := List.mem_map.mp isLater
        have own : first = char.utf8Size := by
          split at isFirst
          · exact List.mem_singleton.mp isFirst
          · cases isFirst
        have := (bounds_of_mem_lineStarts isStart).1
        omega

end ComponentTsx.Text
