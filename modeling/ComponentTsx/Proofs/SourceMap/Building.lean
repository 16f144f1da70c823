import ComponentTsx.Proofs.SourceMap.Offsets
import ComponentTsx.Proofs.SourceMap.Segments

/-!
# Source maps built in offsets

As long as the texts of the pieces stay below the limit of offsets, a builder has
the mappings of the assembly and the length of its text, both in offsets
(`MapBuilder.ofAssembly_eq`).  The mappings are in order already, so the finished
map is the source map of the assembly (`MapBuilder.build_ofAssembly`).

In the finished map the mappings begin in strictly ascending order.  A search for
an offset among their beginnings therefore leads to the piece that going through
all pieces leads to, whatever index it stops at (`MapBuilder.build_answers`).

Source spans are not asked to be in order there.  The length of a span that stops
before it starts is counted past the limit, and so is a distance into it.
-/

namespace ComponentTsx

set_option autoImplicit false

/-! ## Builders -/

namespace MapBuilder

theorem isEmpty_ofLength_iff (start : Offset) {text : Text} (small : text.byteLength < UInt32.size) :
    (OffsetSpan.ofLength start text.byteLength).isEmpty ↔ text = [] := by
  have isZero : UInt32.ofNat text.byteLength = 0 ↔ text.byteLength = 0 := by
    rw [← UInt32.toNat_inj, Offset.toNat_ofNat small, UInt32.toNat_zero]
  rw [OffsetSpan.isEmpty, OffsetSpan.ofLength, decide_eq_true_iff, UInt32.left_eq_add, isZero,
    ← not_iff_not, ← ne_eq text, ← Text.byteLength_pos_iff]
  omega

theorem addReplaced_eq (mappings : List OffsetMapping) (offset : Nat) (source : Span) {text : Text}
    (small : text.byteLength < UInt32.size) :
    addReplaced ⟨mappings, UInt32.ofNat offset⟩ (.ofSpan source) text =
      ⟨mappings ++ ((Piece.replaced source text).mapping? offset).toList.map .ofMapping,
        UInt32.ofNat (offset + text.byteLength)⟩ := by
  have isText : (Piece.replaced source text).text = text := rfl
  rw [addReplaced, Piece.mapping?, isText]
  by_cases empty : text = []
  · rw [if_pos ((isEmpty_ofLength_iff _ small).mpr empty), if_pos empty, Option.toList_none,
      List.map_nil, List.append_nil, UInt32.ofNat_add]
    rfl
  · have isMapping : OffsetMapping.ofMapping ⟨.ofLength offset text.byteLength, source⟩ =
        ⟨.ofLength (UInt32.ofNat offset) text.byteLength, .ofSpan source⟩ := by
      rw [OffsetMapping.ofMapping, OffsetSpan.ofSpan_ofLength]
    rw [if_neg (mt (isEmpty_ofLength_iff _ small).mp empty), if_neg empty, UInt32.ofNat_add]
    exact congrArg (fun mapping => MapBuilder.mk (mappings ++ [mapping]) _) isMapping.symm

/-- A piece adds its mapping, if it has one, and the length of its text. -/
theorem add_eq (mappings : List OffsetMapping) (offset : Nat) {piece : Piece}
    (small : piece.text.byteLength < UInt32.size) :
    add ⟨mappings, UInt32.ofNat offset⟩ piece =
      ⟨mappings ++ (piece.mapping? offset).toList.map .ofMapping,
        UInt32.ofNat (offset + piece.text.byteLength)⟩ := by
  cases piece with
  | copied start text =>
      have whole := addReplaced_eq mappings offset (.ofLength start text.byteLength) small
      rw [OffsetSpan.ofSpan_ofLength] at whole
      exact whole
  | replaced source text => exact addReplaced_eq mappings offset source small
  | synthetic text =>
      have none : (Piece.synthetic text).mapping? offset = none := by
        simp [Piece.mapping?, Piece.source?]
      rw [none, Option.toList_none, List.map_nil, List.append_nil, UInt32.ofNat_add]
      rfl

/-- All pieces of an assembly add its mappings and the length of its text. -/
theorem foldl_add_eq (mappings : List OffsetMapping) (offset : Nat) {assembly : Assembly}
    (small : assembly.text.byteLength < UInt32.size) :
    assembly.foldl add ⟨mappings, UInt32.ofNat offset⟩ =
      ⟨mappings ++ (assembly.mappingsFrom offset).map .ofMapping,
        UInt32.ofNat (offset + assembly.text.byteLength)⟩ := by
  induction assembly generalizing mappings offset with
  | nil => simp
  | cons piece rest ih =>
      rw [Assembly.text_cons, Text.byteLength_append] at small
      rw [List.foldl_cons, add_eq mappings offset (by omega), ih _ _ (by omega)]
      simp [Assembly.mappingsFrom, Nat.add_assoc]

theorem ofAssembly_eq {assembly : Assembly} (small : assembly.text.byteLength < UInt32.size) :
    ofAssembly assembly =
      ⟨(assembly.mappingsFrom 0).map .ofMapping, UInt32.ofNat assembly.text.byteLength⟩ := by
  have whole := foldl_add_eq [] 0 small
  rw [List.nil_append, Nat.zero_add] at whole
  exact whole

end MapBuilder

namespace Assembly

variable {assembly : Assembly}

theorem fits_generated_of_mem (small : assembly.text.byteLength < UInt32.size) {mapping : Mapping}
    (member : mapping ∈ assembly.mappingsFrom 0) : mapping.generated.Fits := by
  obtain ⟨_, nonempty, inside⟩ := bounds_of_mem_mappingsFrom member
  exact ⟨Nat.le_of_lt nonempty, by omega⟩

/-- The mappings lie one after the other in offsets too. -/
theorem pairwise_ofSourceMap (small : assembly.text.byteLength < UInt32.size) :
    (OffsetMap.ofSourceMap assembly.sourceMap).mappings.Pairwise fun first second =>
      first.generated.stop ≤ second.generated.start := by
  refine List.pairwise_map.mpr ((assembly.pairwise_mappingsFrom 0).imp_of_mem ?_)
  intro first second isFirst isSecond ordered
  rw [UInt32.le_iff_toNat_le]
  exact (OffsetSpan.toNat_stop_ofSpan (fits_generated_of_mem small isFirst)).trans_le
    (ordered.trans (OffsetSpan.toNat_start_ofSpan (fits_generated_of_mem small isSecond)).ge)

theorem bounds_of_mem_ofSourceMap (small : assembly.text.byteLength < UInt32.size)
    {mapping : OffsetMapping}
    (member : mapping ∈ (OffsetMap.ofSourceMap assembly.sourceMap).mappings) :
    mapping.generated.start < mapping.generated.stop ∧
      mapping.generated.stop ≤ UInt32.ofNat assembly.text.byteLength := by
  obtain ⟨inNumbers, isMapping, rfl⟩ := List.mem_map.mp member
  have fits := fits_generated_of_mem small isMapping
  obtain ⟨_, nonempty, inside⟩ := bounds_of_mem_mappingsFrom isMapping
  rw [UInt32.lt_iff_toNat_lt, UInt32.le_iff_toNat_le, OffsetMapping.ofMapping,
    OffsetSpan.toNat_start_ofSpan fits, OffsetSpan.toNat_stop_ofSpan fits,
    Offset.toNat_ofNat small]
  exact ⟨nonempty, by omega⟩

/-- The mappings begin in strictly ascending order. -/
theorem pairwise_start_ofSourceMap (small : assembly.text.byteLength < UInt32.size) :
    (OffsetMap.ofSourceMap assembly.sourceMap).mappings.Pairwise fun first second =>
      first.generated.start < second.generated.start := by
  refine (pairwise_ofSourceMap small).imp_of_mem fun isFirst _ ordered => ?_
  exact UInt32.lt_of_lt_of_le (bounds_of_mem_ofSourceMap small isFirst).1 ordered

end Assembly

/-- **Below the limit a builder comes to the source map of the assembly.** -/
theorem MapBuilder.build_ofAssembly {assembly : Assembly}
    (small : assembly.text.byteLength < UInt32.size) :
    (ofAssembly assembly).build = .ofSourceMap assembly.sourceMap := by
  rw [ofAssembly_eq small, build]
  refine congrArg OffsetMap.mk (List.mergeSort_of_pairwise ?_)
  exact (Assembly.pairwise_start_ofSourceMap small).imp fun before =>
    decide_eq_true (UInt32.le_of_lt before)

/-! ## Offsets by going through the pieces -/

/-- The source offset of the byte at a distance into the piece, in offsets. -/
def Piece.offsetAt? (piece : Piece) (distance : Nat) : Option Offset :=
  piece.source?.map fun source =>
    let span := OffsetSpan.ofSpan source
    if UInt32.ofNat piece.text.byteLength = span.length then span.start + UInt32.ofNat distance
    else span.start

namespace Assembly

/-- The length of the texts of the pieces. -/
def totalLength : Assembly → Nat
  | [] => 0
  | piece :: rest => piece.text.byteLength + totalLength rest

/-- The piece that an offset lies in, and how far into it. -/
def pieceAt? : Assembly → Nat → Option (Piece × Nat)
  | [], _ => none
  | piece :: rest, offset =>
      if offset < piece.text.byteLength then some (piece, offset)
      else pieceAt? rest (offset - piece.text.byteLength)

/-- The source offset of a generated one, found by going through the pieces. -/
def scanOffset? (assembly : Assembly) (offset : Nat) : Option Offset :=
  (assembly.pieceAt? offset).bind fun (piece, distance) => piece.offsetAt? distance

/-- The source offset of a generated one in numbers, found by going through the pieces. -/
def scanPosition? (assembly : Assembly) (offset : Nat) : Option Nat :=
  (assembly.pieceAt? offset).bind fun (piece, distance) => piece.sourceAt? distance

theorem byteLength_text (assembly : Assembly) :
    assembly.text.byteLength = assembly.totalLength := by
  induction assembly with
  | nil => rfl
  | cons piece rest ih => simp [totalLength, ih]

/-- The mapping of each piece that has one begins after the texts of the pieces before. -/
theorem mappingsFrom_eq_filterMap (assembly : Assembly) (offset : Nat) :
    assembly.mappingsFrom offset = (List.range assembly.length).filterMap fun index =>
      assembly[index]?.bind fun piece =>
        piece.mapping? (offset + totalLength (assembly.take index)) := by
  induction assembly generalizing offset with
  | nil => rfl
  | cons piece rest ih =>
      rw [mappingsFrom, ih, List.length_cons, List.range_succ_eq_map, List.filterMap_cons,
        List.filterMap_map]
      have later : (fun index => (piece :: rest)[index]?.bind fun found =>
            found.mapping? (offset + totalLength ((piece :: rest).take index))) ∘ Nat.succ =
          fun index => rest[index]?.bind fun found =>
            found.mapping? (offset + piece.text.byteLength + totalLength (rest.take index)) := by
        funext index
        simp [totalLength, Nat.add_assoc]
      rw [later]
      cases own : piece.mapping? offset <;> simp [totalLength, own]

/-- Going through the pieces finds the one that an offset lies in, or none past the end. -/
theorem pieceAt?_cases (assembly : Assembly) (offset : Nat) :
    (∃ before piece after distance, assembly = before ++ piece :: after ∧
        distance < piece.text.byteLength ∧ offset = (text before).byteLength + distance ∧
        assembly.pieceAt? offset = some (piece, distance)) ∨
      assembly.text.byteLength ≤ offset ∧ assembly.pieceAt? offset = none := by
  induction assembly generalizing offset with
  | nil => exact .inr ⟨Nat.zero_le _, rfl⟩
  | cons piece rest ih =>
      rw [pieceAt?]
      by_cases inside : offset < piece.text.byteLength
      · exact .inl ⟨[], piece, rest, offset, rfl, inside, (Nat.zero_add _).symm, if_pos inside⟩
      · rw [if_neg inside]
        rcases ih (offset - piece.text.byteLength) with
          ⟨before, found, after, distance, rfl, within, place, answer⟩ | ⟨past, answer⟩
        · refine .inl ⟨piece :: before, found, after, distance, rfl, within, ?_, answer⟩
          rw [text_cons, Text.byteLength_append]
          omega
        · refine .inr ⟨?_, answer⟩
          rw [text_cons, Text.byteLength_append]
          omega

/-- Past the end of the text no mapping covers anything. -/
theorem covering?_of_length_le {assembly : Assembly} {offset : Nat}
    (past : assembly.text.byteLength ≤ offset) : assembly.sourceMap.covering? offset = none := by
  rw [SourceMap.covering?, Option.filter_eq_none_iff]
  intro mapping last
  have member : mapping ∈ assembly.mappingsFrom 0 :=
    (List.takeWhile_sublist _).subset (List.mem_of_getLast? last)
  have bounds := bounds_of_mem_mappingsFrom member
  rw [Span.contains_iff]
  omega

/-- The source map of an assembly gives an offset what going through the pieces gives it. -/
theorem sourcePosition?_eq_scanPosition? (assembly : Assembly) (offset : Nat) :
    assembly.sourceMap.sourcePosition? offset = assembly.scanPosition? offset := by
  rcases assembly.pieceAt?_cases offset with
    ⟨before, piece, after, distance, rfl, within, rfl, isAt⟩ | ⟨past, isAt⟩
  · rw [scanPosition?, isAt, sourcePosition?_append_cons before after piece within]
    rfl
  · rw [scanPosition?, isAt, SourceMap.sourcePosition?_eq_covering?, covering?_of_length_le past]
    rfl

/-- In offsets too the mapping that covers an offset answers it. -/
theorem sourcePosition?_ofSourceMap_eq {assembly : Assembly}
    (small : assembly.text.byteLength < UInt32.size) (offset : Offset) :
    (OffsetMap.ofSourceMap assembly.sourceMap).sourcePosition? offset =
      (assembly.sourceMap.covering? offset.toNat).map
        fun mapping => (OffsetMapping.ofMapping mapping).toSource offset := by
  have starts : ∀ mapping ∈ assembly.sourceMap.mappings, mapping.generated.start < UInt32.size := by
    intro mapping member
    have fits := fits_generated_of_mem small member
    exact Nat.lt_of_le_of_lt fits.ordered fits.small
  rw [OffsetMap.sourcePosition?, OffsetMap.lastStartingBy?_ofSourceMap starts,
    SourceMap.covering?]
  cases last : assembly.sourceMap.lastStartingBy? offset.toNat with
  | none => rfl
  | some mapping =>
      have member : mapping ∈ assembly.mappingsFrom 0 :=
        (List.takeWhile_sublist _).subset (List.mem_of_getLast? last)
      have same := OffsetSpan.contains_ofSpan (fits_generated_of_mem small member) offset
      simp only [Option.map_some, bind, Option.bind, OffsetMapping.ofMapping, same,
        Option.filter_some]
      split <;> rfl

/-- The mapping of a piece gives the offsets in it what the piece gives them. -/
theorem toSource_ofMapping (piece : Piece) (start distance : Nat) (source : Span) :
    (OffsetMapping.ofMapping ⟨.ofLength start piece.text.byteLength, source⟩).toSource
        (UInt32.ofNat (start + distance)) =
      if UInt32.ofNat piece.text.byteLength = (OffsetSpan.ofSpan source).length then
        (OffsetSpan.ofSpan source).start + UInt32.ofNat distance
      else (OffsetSpan.ofSpan source).start := by
  have sameLength : (OffsetSpan.ofSpan (.ofLength start piece.text.byteLength)).length =
      UInt32.ofNat piece.text.byteLength := by
    rw [OffsetSpan.ofSpan_ofLength, OffsetSpan.length, OffsetSpan.ofLength, UInt32.add_comm,
      UInt32.add_sub_cancel]
  have sameDistance : UInt32.ofNat (start + distance) -
      (OffsetSpan.ofSpan (.ofLength start piece.text.byteLength)).start =
        UInt32.ofNat distance := by
    rw [OffsetSpan.ofSpan, Span.start_ofLength, UInt32.ofNat_add, UInt32.add_comm,
      UInt32.add_sub_cancel]
  simp only [OffsetMapping.toSource, OffsetMapping.isVerbatim, OffsetMapping.ofMapping, sameLength,
    sameDistance, decide_eq_true_eq]

/-- **In offsets the source map gives an offset what going through the pieces gives it.** -/
theorem sourcePosition?_eq_scanOffset? {assembly : Assembly}
    (small : assembly.text.byteLength < UInt32.size) (offset : Offset) :
    (OffsetMap.ofSourceMap assembly.sourceMap).sourcePosition? offset =
      assembly.scanOffset? offset.toNat := by
  rw [sourcePosition?_ofSourceMap_eq small, scanOffset?]
  rcases assembly.pieceAt?_cases offset.toNat with
    ⟨before, piece, after, distance, rfl, within, place, isAt⟩ | ⟨past, isAt⟩
  · have isOffset : offset = UInt32.ofNat ((text before).byteLength + distance) := by
      rw [← place, UInt32.ofNat_toNat]
    have nonempty : piece.text ≠ [] := Text.byteLength_pos_iff.mp (by omega)
    rw [isAt, place, covering?_append_cons before after piece within, Piece.mapping?,
      if_neg nonempty, Option.map_map, isOffset]
    refine congrArg (Option.map · piece.source?) (funext fun source => ?_)
    exact toSource_ofMapping piece (text before).byteLength distance source
  · rw [isAt, covering?_of_length_le past]
    rfl

end Assembly

/-! ## Searching by where mappings begin -/

namespace OffsetMap

/-- What a search for an offset among the beginnings of mappings comes to. -/
inductive Search where
  /-- A mapping at an index begins at the offset. -/
  | found (index : Nat)
  /-- No mapping begins there; one that did would have to stand at an index. -/
  | missing (index : Nat)

/-- Whether a search may come to an outcome: what it finds or where it stops is right. -/
def MayYield (map : OffsetMap) (offset : Offset) : Search → Prop
  | .found index => ∃ mapping, map.mappings[index]? = some mapping ∧
      mapping.generated.start = offset
  | .missing index => index ≤ map.mappings.length ∧
      (∀ mapping ∈ map.mappings.take index, mapping.generated.start < offset) ∧
        ∀ mapping ∈ map.mappings.drop index, offset < mapping.generated.start

/-- The source offset of a generated one by the outcome of a search. -/
def positionBy? (map : OffsetMap) (offset : Offset) (search : Search) : Option Offset := do
  let index ← match search with
    | .found index => some index
    | .missing 0 => none
    | .missing (before + 1) => some before
  let mapping ← map.mappings[index]?
  if mapping.generated.contains offset then some (mapping.toSource offset) else none

variable {map : OffsetMap} {offset : Offset}

/-- The number of mappings that begin at or before the offset, by the outcome of a search. -/
def Search.count : Search → Nat
  | found index => index + 1
  | missing index => index

/-- A search of ordered mappings tells those that begin by the offset from those that do not. -/
theorem start_le_iff_of_mayYield {search : Search}
    (ordered : map.mappings.Pairwise fun first second =>
      first.generated.start < second.generated.start)
    (yields : map.MayYield offset search) :
    (∀ mapping ∈ map.mappings.take search.count, mapping.generated.start ≤ offset) ∧
      ∀ mapping ∈ map.mappings.drop search.count, offset < mapping.generated.start := by
  cases search with
  | missing index =>
      exact ⟨fun mapping member => UInt32.le_of_lt (yields.2.1 mapping member), yields.2.2⟩
  | found index =>
      obtain ⟨mapping, atIndex, rfl⟩ := yields
      obtain ⟨inside, rfl⟩ := List.getElem?_eq_some_iff.mp atIndex
      rw [← List.take_append_drop index map.mappings, List.drop_eq_getElem_cons inside] at ordered
      obtain ⟨_, after, across⟩ := List.pairwise_append.mp ordered
      refine ⟨fun earlier member => ?_, (List.pairwise_cons.mp after).1⟩
      rw [Search.count, List.take_add_one, atIndex] at member
      rcases List.mem_append.mp member with before | here
      · exact UInt32.le_of_lt (across earlier before _ List.mem_cons_self)
      · rw [List.mem_singleton.mp here]
        exact UInt32.le_refl _

/-- The last mapping that begins by an offset is the one that a search leads to. -/
theorem lastStartingBy?_eq_of_mayYield {search : Search}
    (ordered : map.mappings.Pairwise fun first second =>
      first.generated.start < second.generated.start)
    (yields : map.MayYield offset search) :
    map.lastStartingBy? offset = (map.mappings.take search.count).getLast? := by
  obtain ⟨earlier, later⟩ := start_le_iff_of_mayYield ordered yields
  have stops : (map.mappings.drop search.count).takeWhile
      (fun mapping => decide (mapping.generated.start ≤ offset)) = [] := by
    rw [List.takeWhile_eq_nil_iff]
    intro positive
    have := later _ (List.get_mem _ ⟨0, positive⟩)
    simpa using this
  have split : map.mappings.takeWhile (fun mapping => decide (mapping.generated.start ≤ offset)) =
      map.mappings.take search.count := by
    conv => lhs; rw [← List.take_append_drop search.count map.mappings]
    rw [List.takeWhile_append_of_pos fun mapping member => decide_eq_true (earlier mapping member),
      stops, List.append_nil]
  rw [lastStartingBy?, split]

/-- **Whatever a search comes to, it leads to the source offset of the offset.** -/
theorem positionBy?_eq_of_mayYield {search : Search}
    (ordered : map.mappings.Pairwise fun first second =>
      first.generated.start < second.generated.start)
    (yields : map.MayYield offset search) :
    map.positionBy? offset search = map.sourcePosition? offset := by
  rw [sourcePosition?, lastStartingBy?_eq_of_mayYield ordered yields, List.getLast?_take]
  cases search with
  | found index =>
      obtain ⟨mapping, atIndex, _⟩ := yields
      simp [positionBy?, Search.count, atIndex]
  | missing index =>
      cases index with
      | zero => rfl
      | succ before =>
          have inside : before < map.mappings.length := yields.1
          simp [positionBy?, Search.count, List.getElem?_eq_getElem inside]

/-- A search of ordered mappings can come to an outcome. -/
theorem exists_mayYield
    (ordered : map.mappings.Pairwise fun first second =>
      first.generated.start < second.generated.start) (offset : Offset) :
    ∃ search, map.MayYield offset search := by
  -- The mappings that begin before the offset come first; the next one is found or past it.
  let begins : OffsetMapping → Bool := fun mapping => decide (mapping.generated.start < offset)
  let before := map.mappings.takeWhile begins
  have split : before ++ map.mappings.dropWhile begins = map.mappings :=
    List.takeWhile_append_dropWhile
  have earlier : ∀ mapping ∈ before, mapping.generated.start < offset := fun mapping member =>
    of_decide_eq_true (List.mem_takeWhile_imp member : begins mapping = true)
  cases later : map.mappings.dropWhile begins with
  | nil =>
      have all : before = map.mappings := by rw [← split, later, List.append_nil]
      refine ⟨.missing map.mappings.length, Nat.le_refl _, ?_, ?_⟩
      · rw [List.take_length, ← all]
        exact earlier
      · rw [List.drop_length]
        exact fun mapping member => nomatch member
  | cons next rest =>
      rw [later] at split
      have notBefore : ¬ next.generated.start < offset := by
        have stops := List.head_dropWhile_not begins (l := map.mappings) (by simp [later])
        simpa only [later, List.head_cons, begins, decide_eq_false_iff_not] using stops
      rw [← split] at ordered
      have afterNext := (List.pairwise_cons.mp (List.pairwise_append.mp ordered).2.1).1
      by_cases here : next.generated.start = offset
      · exact ⟨.found before.length, next, by rw [← split]; simp, here⟩
      · have past : offset < next.generated.start := by
          rw [UInt32.lt_iff_toNat_lt] at notBefore ⊢
          rw [← UInt32.toNat_inj] at here
          omega
        refine ⟨.missing before.length, ?_, ?_, ?_⟩
        · rw [← split, List.length_append]
          omega
        · rw [← split, List.take_left]
          exact earlier
        · rw [← split, List.drop_left]
          intro mapping member
          rcases List.mem_cons.mp member with rfl | member
          · exact past
          · exact UInt32.lt_trans past (afterNext mapping member)

end OffsetMap

/-! ## Finished maps -/

namespace Assembly

/-- Whether every source span that the pieces stand for is told by its offsets. -/
def SourcesFit (assembly : Assembly) : Prop :=
  ∀ piece ∈ assembly, ∀ source, piece.source? = some source → source.Fits

/-- A mapping is that of a piece. -/
theorem exists_piece_of_mem_mappingsFrom {assembly : Assembly} {offset : Nat} {mapping : Mapping}
    (member : mapping ∈ assembly.mappingsFrom offset) :
    ∃ piece ∈ assembly, piece.source? = some mapping.source := by
  induction assembly generalizing offset with
  | nil => cases member
  | cons piece rest ih =>
      rcases List.mem_append.mp member with here | later
      · have isMapping := Piece.mapping?_eq_some_iff.mp (Option.mem_toList.mp here)
        exact ⟨piece, List.mem_cons_self, isMapping.2.1⟩
      · obtain ⟨found, isPiece, isSource⟩ := ih later
        exact ⟨found, List.mem_cons_of_mem piece isPiece, isSource⟩

theorem fits_of_mem {assembly : Assembly} (small : assembly.text.byteLength < UInt32.size)
    (sources : assembly.SourcesFit) :
    ∀ mapping ∈ assembly.sourceMap.mappings, mapping.Fits := by
  intro mapping member
  obtain ⟨piece, isPiece, isSource⟩ := exists_piece_of_mem_mappingsFrom member
  exact ⟨fits_generated_of_mem small member, sources piece isPiece mapping.source isSource⟩

end Assembly

/--
**A map built piece by piece answers each offset as its piece does**, as long as the texts of all
pieces together stay below the limit.  The length that the builder keeps is that of the texts so
far.  The finished map has one mapping for each piece that has a text and stands for something, in
order and one after the other within the text.  An offset in such a piece has the source offset that
the piece gives it, and any other offset has none, whichever way the mappings are searched.  Source
offsets are counted in offsets; where the source spans are in order and below the limit, that is
counting in numbers.
-/
theorem MapBuilder.build_answers (assembly : Assembly) (small : assembly.totalLength < UInt32.size) :
    let builder := ofAssembly assembly
    let map := builder.build
    builder.length.toNat = assembly.totalLength ∧
      (map.mappings = (List.range assembly.length).filterMap fun index =>
        assembly[index]?.bind fun piece =>
          (piece.mapping? (Assembly.totalLength (assembly.take index))).map .ofMapping) ∧
      (map.mappings.Pairwise fun first second => first.generated.stop ≤ second.generated.start) ∧
      (∀ mapping ∈ map.mappings, mapping.generated.start < mapping.generated.stop ∧
        mapping.generated.stop ≤ builder.length) ∧
      ∀ offset, map.sourcePosition? offset = assembly.scanOffset? offset.toNat ∧
        (∃ search, map.MayYield offset search) ∧
        (∀ search, map.MayYield offset search →
          map.positionBy? offset search = assembly.scanOffset? offset.toNat) ∧
        (assembly.SourcesFit →
          (map.sourcePosition? offset).map UInt32.toNat = assembly.scanPosition? offset.toNat) := by
  intro builder map
  rw [← assembly.byteLength_text] at small ⊢
  have isMap : map = .ofSourceMap assembly.sourceMap := build_ofAssembly small
  have isLength : builder.length = UInt32.ofNat assembly.text.byteLength :=
    congrArg MapBuilder.length (ofAssembly_eq small)
  have ordered := Assembly.pairwise_start_ofSourceMap small
  refine ⟨?_, ?_, ?_, ?_, fun offset => ?_⟩
  · rw [isLength, Offset.toNat_ofNat small]
  · rw [isMap]
    change (assembly.mappingsFrom 0).map _ = _
    rw [assembly.mappingsFrom_eq_filterMap, List.map_filterMap]
    simp only [Nat.zero_add, Option.map_bind]
    rfl
  · exact isMap ▸ Assembly.pairwise_ofSourceMap small
  · rw [isMap, isLength]
    exact fun mapping member => Assembly.bounds_of_mem_ofSourceMap small member
  · rw [isMap]
    have scanned := Assembly.sourcePosition?_eq_scanOffset? small offset
    refine ⟨scanned, OffsetMap.exists_mayYield ordered offset, fun search yields => ?_,
      fun sources => ?_⟩
    · rw [OffsetMap.positionBy?_eq_of_mayYield ordered yields, scanned]
    · rw [OffsetMap.sourcePosition?_ofSourceMap (Assembly.fits_of_mem small sources),
        assembly.sourcePosition?_eq_scanPosition?]

/--
Of two spans that stop before they start one has, counted past the limit, the length of its text,
and the offsets in it go on at zero; the other has not, and leads to its start.
-/
theorem MapBuilder.build_answers_reversed :
    let assembly : Assembly :=
      [.synthetic ['+'], .replaced ⟨4294967294, 1⟩ "abc".toList, .replaced ⟨5, 3⟩ ['d'],
        .copied 7 ['é'], .replaced ⟨2, 4⟩ []]
    let map := (ofAssembly assembly).build
    assembly.totalLength < UInt32.size ∧ map.sourcePosition? 0 = none ∧
      map.sourcePosition? 2 = some 4294967295 ∧ map.sourcePosition? 3 = some 0 ∧
      map.sourcePosition? 4 = some 5 ∧ map.sourcePosition? 6 = some 8 ∧
      map.sourcePosition? 7 = none := by
  intro assembly map
  have small : assembly.totalLength < UInt32.size := by decide
  obtain ⟨_, _, _, _, answers⟩ := build_answers assembly small
  have answer (offset : Offset) : map.sourcePosition? offset = assembly.scanOffset? offset.toNat :=
    (answers offset).1
  exact ⟨small, (answer 0).trans (by decide), (answer 2).trans (by decide),
    (answer 3).trans (by decide), (answer 4).trans (by decide), (answer 6).trans (by decide),
    (answer 7).trans (by decide)⟩

end ComponentTsx
