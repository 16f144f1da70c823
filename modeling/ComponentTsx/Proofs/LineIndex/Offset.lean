import ComponentTsx.Proofs.LineIndex.Position

/-!
# Offsets as lines and columns, and back

An index knows where the lines of its text begin: at the beginning, and right
after each line feed.  These places are in order, so an offset cuts the lines in
those that begin by it and those that begin after it (`exists_cut_ofText`).  The
last of the former is the line of the offset.

From the cut follows what the line and the column of an offset count, that the
offset is found again from them, and that every line and column is found again
from its offset, as long as the column does not reach into the next line
(`tells_ofText`).
-/

namespace ComponentTsx

set_option autoImplicit false

/-! ## Line feeds and the lines after them -/

namespace Text

/-- The offsets of the line feeds of a text. -/
def lineFeeds : Text → List Nat
  | [] => []
  | char :: rest =>
      (if char = '\n' then [0] else []) ++ (lineFeeds rest).map (char.utf8Size + ·)

/-- The offsets of the line feeds that stand before an offset. -/
def lineFeedsBefore (text : Text) (offset : Nat) : List Nat :=
  text.lineFeeds.filter (· < offset)

/-- The place after the last line feed before an offset, or the beginning of the text. -/
def afterLineFeed (text : Text) (offset : Nat) : Nat :=
  (text.lineFeedsBefore offset).getLast?.elim 0 (· + 1)

/-- A line feed is one byte, so the next line begins one byte further. -/
theorem lineStarts_eq_map (text : Text) : text.lineStarts = text.lineFeeds.map (· + 1) := by
  induction text with
  | nil => rfl
  | cons char rest ih =>
      rw [lineStarts, lineFeeds, ih, List.map_append, List.map_map, List.map_map]
      refine congrArg₂ (· ++ ·) ?_ (List.map_congr_left fun _ _ => (Nat.add_assoc _ _ _).symm)
      by_cases isBreak : char = '\n'
      · subst isBreak
        rfl
      · simp [isBreak]

theorem length_lineFeeds (text : Text) : text.lineFeeds.length = text.count '\n' := by
  induction text with
  | nil => rfl
  | cons char rest ih =>
      rw [lineFeeds, List.length_append, List.length_map, ih, List.count_cons, Nat.add_comm]
      by_cases isBreak : char = '\n' <;> simp [isBreak]

/-- The line feeds before an offset are those after which a line begins by the offset. -/
theorem filter_lineStarts (text : Text) (offset : Nat) :
    text.lineStarts.filter (· ≤ offset) = (text.lineFeedsBefore offset).map (· + 1) := by
  rw [lineStarts_eq_map, List.filter_map, lineFeedsBefore]
  rfl

end Text

/-! ## The lines that begin by an offset -/

namespace LineIndex

theorem map_start_ofText (text : Text) :
    (ofText text).lines.toList.map (·.start) = 0 :: text.lineStarts := by
  rw [ofText, List.toList_toArray, Line.map_start_linesFrom]
  simp

theorem lineCount_ofText (text : Text) : (ofText text).lineCount = text.count '\n' + 1 := by
  have starts := congrArg List.length (map_start_ofText text)
  rwa [List.length_map, Array.length_toList, List.length_cons, Text.lineStarts_eq_map,
    List.length_map, Text.length_lineFeeds] at starts

theorem pairwise_start_ofText (text : Text) :
    (ofText text).lines.toList.Pairwise fun first second => first.start < second.start := by
  rw [← List.pairwise_map, map_start_ofText, List.pairwise_cons]
  exact ⟨fun start later => (Text.bounds_of_mem_lineStarts later).1, text.pairwise_lineStarts⟩

/-- Some lines cut where an offset is: the last of the first ones is the offset's own. -/
structure IsCut (index : LineIndex) (offset : Nat) (firsts : List Line) (own : Line)
    (later : List Line) : Prop where
  lines : index.lines.toList = firsts ++ own :: later
  earlier : ∀ line ∈ firsts, line.start ≤ offset
  reached : own.start ≤ offset
  after : ∀ line ∈ later, offset < line.start

namespace IsCut

variable {index : LineIndex} {offset : Nat} {firsts later : List Line} {own : Line}

theorem lineStart? (cut : index.IsCut offset firsts own later) :
    index.lineStart? firsts.length = some own.start := by
  rw [LineIndex.lineStart?, ← Array.getElem?_toList, cut.lines,
    List.getElem?_append_right (Nat.le_refl _), Nat.sub_self]
  rfl

/-- The position of an offset is told by its own line. -/
theorem position (cut : index.IsCut offset firsts own later) :
    index.position offset = ⟨firsts.length, offset - own.start⟩ := by
  rw [LineIndex.position, lineOf_eq cut.lines cut.earlier cut.reached cut.after, cut.lineStart?]
  rfl

/-- The offset is found again from its position. -/
theorem offset?_position (cut : index.IsCut offset firsts own later) :
    index.offset? (index.position offset) = some offset := by
  rw [cut.position, offset?, cut.lineStart?, Option.map_some, Nat.add_sub_cancel' cut.reached]

/-- The starts of the lines through the offset's own. -/
theorem filter_start (cut : index.IsCut offset firsts own later) :
    (index.lines.toList.map (·.start)).filter (· ≤ offset) =
      firsts.map (·.start) ++ [own.start] := by
  have earlier : ∀ start ∈ firsts.map (·.start), decide (start ≤ offset) = true := by
    simpa using cut.earlier
  have after : ∀ start ∈ later.map (·.start), ¬ decide (start ≤ offset) = true := by
    simpa using cut.after
  rw [cut.lines, List.map_append, List.map_cons, List.filter_append,
    List.filter_eq_self.mpr earlier, List.filter_cons_of_pos (by simpa using cut.reached),
    List.filter_eq_nil_iff.mpr after]

end IsCut

/-- Lines in order are cut by every offset that the first of them begins by. -/
theorem exists_cut {first : Line} {rest : List Line} {offset : Nat}
    (ordered : (first :: rest).Pairwise fun line other => line.start < other.start)
    (reached : first.start ≤ offset) :
    ∃ firsts own later, IsCut ⟨(first :: rest).toArray⟩ offset firsts own later := by
  induction rest generalizing first with
  | nil => exact ⟨[], first, [], rfl, by simp, reached, by simp⟩
  | cons second rest ih =>
      obtain ⟨_, others⟩ := List.pairwise_cons.mp ordered
      by_cases goesOn : second.start ≤ offset
      · obtain ⟨firsts, own, later, cut⟩ := ih others goesOn
        exact ⟨first :: firsts, own, later, congrArg (first :: ·) cut.lines,
          List.forall_mem_cons.mpr ⟨reached, cut.earlier⟩, cut.reached, cut.after⟩
      · have beyond := Nat.lt_of_not_le goesOn
        refine ⟨[], first, second :: rest, rfl, by simp, reached, ?_⟩
        refine List.forall_mem_cons.mpr ⟨beyond, fun line member => ?_⟩
        exact Nat.lt_trans beyond ((List.pairwise_cons.mp others).1 line member)

/-- **Every offset cuts the lines of a text.** -/
theorem exists_cut_ofText (text : Text) (offset : Nat) :
    ∃ firsts own later, IsCut (ofText text) offset firsts own later := by
  have ordered := pairwise_start_ofText text
  obtain ⟨more, later, lines, -⟩ := Line.linesFrom_eq_cons 0 [] text
  rw [ofText, lines] at ordered ⊢
  exact exists_cut ordered (Nat.zero_le offset)

/-- An offset on a line, before the next line begins, cuts the lines behind that line. -/
theorem exists_cut_of_lineStart? {text : Text} {line start offset : Nat}
    (begins : (ofText text).lineStart? line = some start) (reached : start ≤ offset)
    (ends : ∀ next, (ofText text).lineStart? (line + 1) = some next → offset < next) :
    ∃ firsts own later, IsCut (ofText text) offset firsts own later ∧
      firsts.length = line ∧ own.start = start := by
  obtain ⟨own, isOwn, rfl⟩ := Option.map_eq_some_iff.mp begins
  rw [← Array.getElem?_toList] at isOwn
  obtain ⟨inside, rfl⟩ := List.getElem?_eq_some_iff.mp isOwn
  have lines := (List.take_append_drop line (ofText text).lines.toList).symm
  rw [List.drop_eq_getElem_cons inside] at lines
  have ordered := pairwise_start_ofText text
  rw [lines, List.pairwise_append, List.pairwise_cons] at ordered
  obtain ⟨_, ⟨_, others⟩, across⟩ := ordered
  refine ⟨_, _, _, ⟨lines, fun other member => ?_, reached, ?_⟩,
    List.length_take_of_le inside.le, rfl⟩
  · exact Nat.le_trans (Nat.le_of_lt (across other member _ List.mem_cons_self)) reached
  · cases isLater : (ofText text).lines.toList.drop (line + 1) with
    | nil => simp
    | cons next later =>
        rw [isLater] at others
        have short : offset < next.start := by
          apply ends
          rw [lineStart?, ← Array.getElem?_toList, ← List.head?_drop, isLater]
          rfl
        refine List.forall_mem_cons.mpr ⟨short, fun other member => ?_⟩
        exact Nat.lt_trans short ((List.pairwise_cons.mp others).1 other member)

/-- The lines after the first begin right after the line feeds, in order. -/
theorem lineStart?_succ (text : Text) (line : Nat) :
    (ofText text).lineStart? (line + 1) = text.lineFeeds[line]?.map (· + 1) := by
  rw [lineStart?, ← Array.getElem?_toList, ← List.getElem?_map, map_start_ofText,
    List.getElem?_cons_succ, Text.lineStarts_eq_map, List.getElem?_map]

theorem position_ofText (text : Text) (offset : Nat) :
    (ofText text).position offset =
      ⟨(text.lineFeedsBefore offset).length, offset - text.afterLineFeed offset⟩ := by
  obtain ⟨firsts, own, later, cut⟩ := exists_cut_ofText text offset
  have starts := cut.filter_start
  rw [map_start_ofText, List.filter_cons_of_pos (by simp), Text.filter_lineStarts] at starts
  have line := congrArg List.length starts
  have start := congrArg List.getLast? starts
  rw [List.getLast?_concat, List.getLast?_cons, List.getLast?_map] at start
  rw [List.length_cons, List.length_map, List.length_append, List.length_map, List.length_singleton]
    at line
  rw [cut.position, Text.afterLineFeed, Nat.add_right_cancel line, ← Option.some.inj start]
  cases (text.lineFeedsBefore offset).getLast? <;> rfl

theorem offset?_position_ofText (text : Text) (offset : Nat) :
    (ofText text).offset? ((ofText text).position offset) = some offset := by
  obtain ⟨firsts, own, later, cut⟩ := exists_cut_ofText text offset
  exact cut.offset?_position

/-- The line of a later offset is the same or a later one. -/
theorem line_position_mono (text : Text) {first second : Nat} (order : first ≤ second) :
    ((ofText text).position first).line ≤ ((ofText text).position second).line := by
  rw [position_ofText, position_ofText, Text.lineFeedsBefore, Text.lineFeedsBefore,
    ← List.countP_eq_length_filter, ← List.countP_eq_length_filter]
  refine List.countP_mono_left fun feed _ before => ?_
  exact decide_eq_true (Nat.lt_of_lt_of_le (of_decide_eq_true before) order)

/-- **Positions are in the order of their offsets.** -/
theorem isBefore_position (text : Text) {first second : Nat} (order : first < second) :
    ((ofText text).position first).IsBefore ((ofText text).position second) := by
  have found := offset?_position_ofText text first
  have foundToo := offset?_position_ofText text second
  rcases Nat.eq_or_lt_of_le (line_position_mono text order.le) with same | less
  · rw [offset?, same] at found
    obtain ⟨start, begins, isFirst⟩ := Option.map_eq_some_iff.mp found
    rw [offset?, begins, Option.map_some] at foundToo
    have isSecond := Option.some.inj foundToo
    exact .inr ⟨same, by omega⟩
  · exact .inl less

theorem position_offset? {text : Text} {position : Position} {offset : Nat}
    (found : (ofText text).offset? position = some offset)
    (short : ∀ feed, text.lineFeeds[position.line]? = some feed → offset ≤ feed) :
    (ofText text).position offset = position := by
  obtain ⟨start, begins, rfl⟩ := Option.map_eq_some_iff.mp found
  obtain ⟨firsts, own, later, cut, line, rfl⟩ :=
    exists_cut_of_lineStart? begins (Nat.le_add_right _ _) fun next isNext => by
      rw [lineStart?_succ] at isNext
      obtain ⟨feed, isFeed, rfl⟩ := Option.map_eq_some_iff.mp isNext
      exact Nat.lt_succ_of_le (short feed isFeed)
  rw [cut.position, line, Nat.add_sub_cancel_left]

/-! ## What an index tells -/

/-- What an index tells about the lines, offsets and positions of a text. -/
structure Tells (index : LineIndex) (text : Text) : Prop where
  /-- There is one line more than there are line feeds. -/
  lineCount : index.lineCount = text.count '\n' + 1
  /-- A line counts the line feeds before an offset, a column the bytes after the last of them. -/
  position : ∀ offset, index.position offset =
    ⟨(text.lineFeedsBefore offset).length, offset - text.afterLineFeed offset⟩
  /-- Every offset is found again from its position. -/
  offset? : ∀ offset, index.offset? (index.position offset) = some offset
  /-- Positions are in the order of their offsets. -/
  ordered : ∀ first second, first < second →
    (index.position first).IsBefore (index.position second)
  /-- Only a position on a line that does not exist has no offset. -/
  missing : ∀ position : Position, index.offset? position = none ↔ index.lineCount ≤ position.line
  /-- A position is found again from its offset, unless it reaches into the next line. -/
  found : ∀ position offset, index.offset? position = some offset →
    (∀ feed, text.lineFeeds[position.line]? = some feed → offset ≤ feed) →
      index.position offset = position

/-- **The index of a text tells every offset as a line and a column, and back.** -/
theorem tells_ofText (text : Text) : (ofText text).Tells text where
  lineCount := lineCount_ofText text
  position := position_ofText text
  offset? := offset?_position_ofText text
  ordered := fun _ _ => isBefore_position text
  missing := fun position => by
    rw [LineIndex.offset?, Option.map_eq_none_iff, lineStart?, Option.map_eq_none_iff,
      Array.getElem?_eq_none_iff, LineIndex.lineCount]
  found := fun _ _ => position_offset?

end LineIndex

end ComponentTsx
