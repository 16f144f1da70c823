import ComponentTsx.Proofs.LineIndex.Offset

/-!
# Columns in UTF-16 units and in bytes

Where positions leave the program their columns count UTF-16 code units.  Both
kinds of columns measure the same stretch of a text, from the last line feed to
the offset (`column_position_append`).  No character has more units than bytes,
and only the characters of ASCII have as many, so the two columns agree exactly
where the stretch is ASCII (`utf16Length_eq_byteLength_iff`).

With the order of positions this makes an index tell character boundaries apart
by line and unit as well as by line and byte (`countsUnits_ofText`).
-/

namespace ComponentTsx

set_option autoImplicit false

namespace Text

/-! ## Units and bytes of a stretch -/

/-- Whether all characters of a text are in ASCII. -/
def IsAscii (text : Text) : Prop := ∀ char ∈ text, char.toNat < 0x80

/-- A character has no more units than bytes, and as many only in ASCII. -/
theorem utf16Size_cases (char : Char) :
    char.toNat < 0x80 ∧ utf16Size char = char.utf8Size ∨
      0x80 ≤ char.toNat ∧ utf16Size char < char.utf8Size := by
  have units : utf16Size char = if char.toNat < 0x10000 then 1 else 2 := rfl
  have bytes : char.utf8Size =
      if char.toNat ≤ 0x7f then 1 else if char.toNat ≤ 0x7ff then 2
      else if char.toNat ≤ 0xffff then 3 else 4 := rfl
  rw [units, bytes]
  split_ifs <;> omega

theorem utf16Length_le_byteLength (text : Text) : text.utf16Length ≤ text.byteLength := by
  induction text with
  | nil => exact Nat.le_refl 0
  | cons char rest ih =>
      rw [utf16Length, byteLength_cons]
      have := utf16Size_cases char
      omega

/-- **Units and bytes agree in ASCII alone.** -/
theorem utf16Length_eq_byteLength_iff (text : Text) :
    text.utf16Length = text.byteLength ↔ text.IsAscii := by
  induction text with
  | nil => simp [IsAscii, utf16Length]
  | cons char rest ih =>
      rw [IsAscii, List.forall_mem_cons, ← IsAscii, ← ih, utf16Length, byteLength_cons]
      have := utf16Size_cases char
      have := utf16Length_le_byteLength rest
      omega

/-! ## The stretch of a byte column -/

theorem lineFeeds_append (first second : Text) :
    lineFeeds (first ++ second) =
      lineFeeds first ++ (lineFeeds second).map (first.byteLength + ·) := by
  induction first with
  | nil => simp [lineFeeds]
  | cons char rest ih => simp [lineFeeds, ih, Function.comp_def, Nat.add_assoc]

/-- A line feed stands before the end of its text. -/
theorem lt_byteLength_of_mem_lineFeeds {text : Text} {feed : Nat} (member : feed ∈ text.lineFeeds) :
    feed < text.byteLength := by
  have begins : feed + 1 ∈ text.lineStarts := by
    rw [lineStarts_eq_map]
    exact List.mem_map_of_mem member
  exact (bounds_of_mem_lineStarts begins).2

/-- The line feeds before a character boundary are those of the text before it. -/
theorem lineFeedsBefore_append (before after : Text) :
    lineFeedsBefore (before ++ after) before.byteLength = before.lineFeeds := by
  rw [lineFeedsBefore, lineFeeds_append, List.filter_append, List.filter_eq_self.mpr,
    List.filter_eq_nil_iff.mpr, List.append_nil]
  · simp
  · exact fun feed member => decide_eq_true (lt_byteLength_of_mem_lineFeeds member)

theorem afterLineFeed_append (before after : Text) :
    afterLineFeed (before ++ after) before.byteLength + before.lastLine.byteLength =
      before.byteLength := by
  rw [afterLineFeed, lineFeedsBefore_append]
  obtain ⟨earlier, split, whole⟩ := before.exists_lastLine_append
  have noFeed : before.lastLine.lineFeeds = [] := by
    rw [← List.length_eq_zero_iff, length_lineFeeds]
    exact List.count_eq_zero.mpr before.break_notMem_lastLine
  generalize before.lastLine = line at *
  subst split
  rw [lineFeeds_append, noFeed, List.map_nil, List.append_nil, byteLength_append]
  rcases whole with rfl | ⟨body, rfl⟩
  · rfl
  · have one : Char.utf8Size '\n' = 1 := rfl
    rw [lineFeeds_append, byteLength_append]
    simp [lineFeeds, one]

end Text

namespace LineIndex

/-- The byte column of a character boundary measures what follows the last line feed. -/
theorem column_position_append (before after : Text) :
    ((ofText (before ++ after)).position before.byteLength).column =
      before.lastLine.byteLength := by
  rw [position_ofText]
  have := Text.afterLineFeed_append before after
  simp only
  omega

/-! ## What an index tells in units -/

/-- What an index tells about the positions of character boundaries in UTF-16 units. -/
structure CountsUnits (index : LineIndex) (text : Text) : Prop where
  /-- A line counts line feeds, and a column the units after the last of them. -/
  position : ∀ before after, text = before ++ after →
    index.positionUtf16 before.byteLength = ⟨before.count '\n', before.lastLine.utf16Length⟩
  /-- Positions are in the order of the boundaries. -/
  ordered : ∀ first second, text.IsBoundary first → text.IsBoundary second → first < second →
    (index.positionUtf16 first).IsBefore (index.positionUtf16 second)
  /-- No two boundaries have the same position. -/
  apart : ∀ first second, text.IsBoundary first → text.IsBoundary second →
    index.positionUtf16 first = index.positionUtf16 second → first = second
  /-- The line is that of the byte position. -/
  line : ∀ offset, (index.positionUtf16 offset).line = (index.position offset).line
  /-- The column is at most that of the byte position, and the same in ASCII alone. -/
  column : ∀ before after, text = before ++ after →
    (index.positionUtf16 before.byteLength).column ≤ (index.position before.byteLength).column ∧
      ((index.positionUtf16 before.byteLength).column = (index.position before.byteLength).column ↔
        before.lastLine.IsAscii)

theorem isBefore_positionUtf16 {text : Text} {first second : Nat}
    (isFirst : text.IsBoundary first) (isSecond : text.IsBoundary second) (order : first < second) :
    ((ofText text).positionUtf16 first).IsBefore ((ofText text).positionUtf16 second) := by
  rw [positionUtf16_ofText, positionUtf16_ofText]
  exact Text.isBefore_positionAt isFirst isSecond order

/-- **The index of a text tells its character boundaries apart by line and UTF-16 column.** -/
theorem countsUnits_ofText (text : Text) : (ofText text).CountsUnits text where
  position := by
    rintro before after rfl
    rw [positionUtf16_ofText, Text.positionAt_append]
    rfl
  ordered := fun _ _ => isBefore_positionUtf16
  apart := by
    intro first second isFirst isSecond same
    rcases Nat.lt_trichotomy first second with less | equal | greater
    · exact absurd same (isBefore_positionUtf16 isFirst isSecond less).ne
    · exact equal
    · exact absurd same.symm (isBefore_positionUtf16 isSecond isFirst greater).ne
  line := fun _ => rfl
  column := by
    rintro before after rfl
    rw [column_position_append, positionUtf16_ofText, Text.positionAt_append]
    exact ⟨before.lastLine.utf16Length_le_byteLength, before.lastLine.utf16Length_eq_byteLength_iff⟩

end LineIndex

end ComponentTsx
