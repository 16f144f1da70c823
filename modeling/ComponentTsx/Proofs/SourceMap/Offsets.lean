import ComponentTsx.SourceMap.Builder

/-!
# Offsets and the numbers that they stand for

Offsets have 32 bits.  A span whose ends come in order and lie below that limit is
told by its offsets: it has the same length, members and text (`Span.Fits`).  If
all spans of a source map do, then looking up an offset in either direction comes
to the same in offsets and in numbers (`OffsetMap.sourcePosition?_ofSourceMap`,
`OffsetMap.generatedPosition?_ofSourceMap`).

What is said of source maps in numbers holds below the limit only by these theorems.
-/

namespace ComponentTsx

set_option autoImplicit false

theorem Offset.toNat_ofNat {number : Nat} (small : number < UInt32.size) :
    (UInt32.ofNat number).toNat = number := UInt32.toNat_ofNat_of_lt' small

theorem Offset.toNat_min (first second : Offset) :
    (min first second).toNat = min first.toNat second.toNat := by
  change (if first ≤ second then first else second).toNat = _
  split <;> rename_i order <;> simp only [UInt32.le_iff_toNat_le] at order <;> omega

theorem Offset.toNat_max (first second : Offset) :
    (max first second).toNat = max first.toNat second.toNat := by
  change (if first ≤ second then second else first).toNat = _
  split <;> rename_i order <;> simp only [UInt32.le_iff_toNat_le] at order <;> omega

/-! ## Spans -/

/-- Whether the ends of a span come in order and lie below the limit of offsets. -/
structure Span.Fits (span : Span) : Prop where
  ordered : span.start ≤ span.stop
  small : span.stop < UInt32.size

namespace OffsetSpan

variable {span : Span}

theorem ofSpan_ofLength (start length : Nat) :
    ofSpan (.ofLength start length) = ofLength (UInt32.ofNat start) length := by
  rw [ofSpan, ofLength, Span.start_ofLength, Span.stop_ofLength, UInt32.ofNat_add]

theorem ofSpan_toSpan (span : OffsetSpan) : ofSpan span.toSpan = span := by
  rw [ofSpan, toSpan, UInt32.ofNat_toNat, UInt32.ofNat_toNat]

theorem toNat_start_ofSpan (fits : span.Fits) : (ofSpan span).start.toNat = span.start :=
  Offset.toNat_ofNat (Nat.lt_of_le_of_lt fits.ordered fits.small)

theorem toNat_stop_ofSpan (fits : span.Fits) : (ofSpan span).stop.toNat = span.stop :=
  Offset.toNat_ofNat fits.small

theorem toSpan_ofSpan (fits : span.Fits) : (ofSpan span).toSpan = span := by
  rw [toSpan, toNat_start_ofSpan fits, toNat_stop_ofSpan fits]

theorem toNat_length_ofSpan (fits : span.Fits) : (ofSpan span).length.toNat = span.length := by
  have ordered : (ofSpan span).start ≤ (ofSpan span).stop := by
    rw [UInt32.le_iff_toNat_le, toNat_start_ofSpan fits, toNat_stop_ofSpan fits]
    exact fits.ordered
  rw [length, UInt32.toNat_sub_of_le _ _ ordered, toNat_start_ofSpan fits,
    toNat_stop_ofSpan fits, Span.length]

theorem contains_ofSpan (fits : span.Fits) (offset : Offset) :
    (ofSpan span).contains offset = span.contains offset.toNat := by
  rw [Bool.eq_iff_iff, contains_iff, Span.contains_iff, UInt32.le_iff_toNat_le,
    UInt32.lt_iff_toNat_lt, toNat_start_ofSpan fits, toNat_stop_ofSpan fits]

theorem ofSpan_shift (span : Span) (distance : Nat) :
    ofSpan (span.shift distance) = (ofSpan span).shift (UInt32.ofNat distance) := by
  rw [ofSpan, shift, ofSpan, Span.shift, UInt32.ofNat_add, UInt32.ofNat_add]

theorem ofSpan_cover {first second : Span} (fits : first.Fits) (fitsToo : second.Fits) :
    ofSpan (first.cover second) = (ofSpan first).cover (ofSpan second) := by
  have least : UInt32.ofNat (min first.start second.start) =
      min (ofSpan first).start (ofSpan second).start := by
    rw [← UInt32.toNat_inj, Offset.toNat_min, toNat_start_ofSpan fits, toNat_start_ofSpan fitsToo]
    exact Offset.toNat_ofNat (Nat.lt_of_le_of_lt (Nat.min_le_left _ _)
      (Nat.lt_of_le_of_lt fits.ordered fits.small))
  have greatest : UInt32.ofNat (max first.stop second.stop) =
      max (ofSpan first).stop (ofSpan second).stop := by
    rw [← UInt32.toNat_inj, Offset.toNat_max, toNat_stop_ofSpan fits, toNat_stop_ofSpan fitsToo]
    exact Offset.toNat_ofNat (Nat.max_lt.mpr ⟨fits.small, fitsToo.small⟩)
  rw [cover, ← least, ← greatest]
  rfl

theorem slice_ofSpan (fits : span.Fits) (text : Text) :
    (ofSpan span).slice text = span.slice text := by
  rw [slice, toSpan_ofSpan fits]

end OffsetSpan

/-! ## Mappings -/

/-- Whether both spans of a mapping are told by their offsets. -/
structure Mapping.Fits (mapping : Mapping) : Prop where
  generated : mapping.generated.Fits
  source : mapping.source.Fits

namespace OffsetMapping

open OffsetSpan

variable {mapping : Mapping}

theorem toMapping_ofMapping (fits : mapping.Fits) : (ofMapping mapping).toMapping = mapping := by
  rw [toMapping, ofMapping, toSpan_ofSpan fits.generated, toSpan_ofSpan fits.source]

theorem isVerbatim_ofMapping (fits : mapping.Fits) :
    (ofMapping mapping).isVerbatim = mapping.isVerbatim := by
  rw [isVerbatim, Mapping.isVerbatim, Bool.eq_iff_iff, decide_eq_true_iff, decide_eq_true_iff,
    ← UInt32.toNat_inj, ofMapping, toNat_length_ofSpan fits.generated,
    toNat_length_ofSpan fits.source]

/-- A distance into a span leads as far from the start of a span of the same length. -/
theorem toNat_add_sub {first second : Span} (fits : first.Fits) (fitsToo : second.Fits)
    (sameLength : first.length = second.length) {offset : Offset}
    (inside : first.contains offset.toNat) :
    ((ofSpan second).start + (offset - (ofSpan first).start)).toNat =
      second.start + (offset.toNat - first.start) := by
  rw [Span.contains_iff] at inside
  have after : (ofSpan first).start ≤ offset := by
    rw [UInt32.le_iff_toNat_le, toNat_start_ofSpan fits]
    exact inside.1
  have bound : second.start + (offset.toNat - first.start) < UInt32.size := by
    have := fitsToo.small
    have := fitsToo.ordered
    simp only [Span.length] at sameLength
    omega
  rw [UInt32.toNat_add, UInt32.toNat_sub_of_le _ _ after, toNat_start_ofSpan fits,
    toNat_start_ofSpan fitsToo, Nat.mod_eq_of_lt bound]

theorem toNat_toSource_ofMapping (fits : mapping.Fits) {offset : Offset}
    (inside : mapping.generated.contains offset.toNat) :
    ((ofMapping mapping).toSource offset).toNat = mapping.toSource offset.toNat := by
  rw [toSource, Mapping.toSource, isVerbatim_ofMapping fits]
  split
  · rename_i verbatim
    exact toNat_add_sub fits.generated fits.source (of_decide_eq_true verbatim) inside
  · exact toNat_start_ofSpan fits.source

theorem toNat_toGenerated_ofMapping (fits : mapping.Fits) {offset : Offset}
    (inside : mapping.source.contains offset.toNat) :
    ((ofMapping mapping).toGenerated offset).toNat = mapping.toGenerated offset.toNat := by
  rw [toGenerated, Mapping.toGenerated, isVerbatim_ofMapping fits]
  split
  · rename_i verbatim
    exact toNat_add_sub fits.source fits.generated (of_decide_eq_true verbatim).symm inside
  · exact toNat_start_ofSpan fits.generated

end OffsetMapping

/-! ## Source maps -/

namespace OffsetMap

variable {map : SourceMap} {offset : Offset}

/-- A search of mappings that begin below the limit leads to the same mapping. -/
theorem lastStartingBy?_ofSourceMap
    (small : ∀ mapping ∈ map.mappings, mapping.generated.start < UInt32.size) (offset : Offset) :
    (ofSourceMap map).lastStartingBy? offset =
      (map.lastStartingBy? offset.toNat).map .ofMapping := by
  have begins : ∀ mapping ∈ map.mappings,
      ((fun other : OffsetMapping => decide (other.generated.start ≤ offset)) ∘ .ofMapping)
        mapping = decide (mapping.generated.start ≤ offset.toNat) := by
    intro mapping member
    refine decide_eq_decide.mpr ?_
    rw [UInt32.le_iff_toNat_le, OffsetMapping.ofMapping, OffsetSpan.ofSpan,
      Offset.toNat_ofNat (small mapping member)]
  rw [lastStartingBy?, ofSourceMap, List.takeWhile_map, List.getLast?_map,
    SourceMap.lastStartingBy?]
  refine congrArg (Option.map _ ∘ List.getLast?) ?_
  generalize map.mappings = mappings at begins
  induction mappings with
  | nil => rfl
  | cons mapping rest ih =>
      obtain ⟨here, later⟩ := List.forall_mem_cons.mp begins
      rw [List.takeWhile_cons, List.takeWhile_cons, here, ih later]

/-- **The way to the source is the same in offsets and in numbers.** -/
theorem sourcePosition?_ofSourceMap (fits : ∀ mapping ∈ map.mappings, mapping.Fits)
    (offset : Offset) :
    ((ofSourceMap map).sourcePosition? offset).map UInt32.toNat =
      map.sourcePosition? offset.toNat := by
  have small : ∀ mapping ∈ map.mappings, mapping.generated.start < UInt32.size :=
    fun mapping member => Nat.lt_of_le_of_lt (fits mapping member).generated.ordered
      (fits mapping member).generated.small
  rw [sourcePosition?, SourceMap.sourcePosition?, lastStartingBy?_ofSourceMap small]
  cases last : map.lastStartingBy? offset.toNat with
  | none => rfl
  | some mapping =>
      have member : mapping ∈ map.mappings :=
        (List.takeWhile_sublist _).subset (List.mem_of_getLast? last)
      have fits := fits mapping member
      have same := OffsetSpan.contains_ofSpan fits.generated offset
      simp only [Option.map_some, bind, Option.bind, OffsetMapping.ofMapping, same]
      split
      · rename_i inside
        exact congrArg some (OffsetMapping.toNat_toSource_ofMapping fits inside)
      · rfl

/-- **The way to the generated text is the same in offsets and in numbers.** -/
theorem generatedPosition?_ofSourceMap (fits : ∀ mapping ∈ map.mappings, mapping.Fits)
    (offset : Offset) :
    ((ofSourceMap map).generatedPosition? offset).map UInt32.toNat =
      map.generatedPosition? offset.toNat := by
  have found : (ofSourceMap map).mappings.find? (·.source.contains offset) =
      (map.mappings.find? (·.source.contains offset.toNat)).map .ofMapping := by
    rw [ofSourceMap, List.find?_map]
    refine congrArg (Option.map _) ?_
    generalize map.mappings = mappings at fits
    induction mappings with
    | nil => rfl
    | cons mapping rest ih =>
        obtain ⟨here, later⟩ := List.forall_mem_cons.mp fits
        have same := OffsetSpan.contains_ofSpan here.source offset
        rw [List.find?_cons, List.find?_cons, ih later, Function.comp_apply,
          OffsetMapping.ofMapping, same]
  rw [generatedPosition?, SourceMap.generatedPosition?, found]
  cases isFirst : map.mappings.find? (·.source.contains offset.toNat) with
  | none => rfl
  | some mapping =>
      have inside := List.find?_some isFirst
      exact congrArg some (OffsetMapping.toNat_toGenerated_ofMapping
        (fits mapping (List.mem_of_find?_eq_some isFirst)) inside)

theorem toSourceMap_ofSourceMap (fits : ∀ mapping ∈ map.mappings, mapping.Fits) :
    (ofSourceMap map).toSourceMap = map := by
  refine congrArg SourceMap.mk ?_
  rw [ofSourceMap, List.map_map]
  conv => rhs; rw [← List.map_id map.mappings]
  exact List.map_congr_left fun mapping member =>
    OffsetMapping.toMapping_ofMapping (fits mapping member)

end OffsetMap

end ComponentTsx
