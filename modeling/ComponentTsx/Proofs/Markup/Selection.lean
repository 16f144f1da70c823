import ComponentTsx.Markup
import ComponentTsx.Proofs.LineIndex.Position
import Mathlib.Data.List.Perm.Basic

/-!
# The mappings that lowered markup keeps

A lowering may give its mappings in any order, and they may overlap or run past
the end of the code.  Going through them in the order of where they begin, a
mapping is kept if it begins no earlier than the one kept before it ends, and
ends within the code (`keptFrom`).

Cutting the code at its mappings does the same with texts in place of offsets.
If the mappings that end within the code are parts of it, the two agree: the
pieces of the markup have the kept mappings, those of empty parts left out, each
moved to where the code begins (`mappingsFrom_pieces`).  A mapping that begins in
no other one is kept (`mem_kept`).
-/

namespace ComponentTsx

set_option autoImplicit false

namespace Mapping

/-- Whether the mapping has a generated text. -/
def HasText (mapping : Mapping) : Prop := mapping.generated.start < mapping.generated.stop

instance : DecidablePred HasText := fun mapping =>
  inferInstanceAs (Decidable (mapping.generated.start < mapping.generated.stop))

/-- The mapping with its generated span moved right by a distance. -/
def moved (mapping : Mapping) (distance : Nat) : Mapping :=
  ⟨mapping.generated.shift distance, mapping.source⟩

end Mapping

namespace LoweredMarkup

/-! ## The order of the mappings -/

/-- Mappings in the order of where they begin, those that begin together in their own order. -/
structure AreInStableOrder (mappings ordered : List Mapping) : Prop where
  perm : ordered.Perm mappings
  ascending : ordered.Pairwise fun first second =>
    first.generated.start ≤ second.generated.start
  stable : ∀ start, ordered.filter (·.generated.start = start) =
    mappings.filter (·.generated.start = start)

theorem areInStableOrder_inOrder (mappings : List Mapping) :
    AreInStableOrder mappings (inOrder mappings) := by
  have transitive : ∀ first second third : Mapping,
      decide (first.generated.start ≤ second.generated.start) = true →
        decide (second.generated.start ≤ third.generated.start) = true →
          decide (first.generated.start ≤ third.generated.start) = true := by
    simp only [decide_eq_true_eq]
    omega
  have total : ∀ first second : Mapping,
      (decide (first.generated.start ≤ second.generated.start) ||
        decide (second.generated.start ≤ first.generated.start)) = true := by
    simp only [Bool.or_eq_true, decide_eq_true_eq]
    omega
  have perm : (inOrder mappings).Perm mappings := List.mergeSort_perm _ _
  refine ⟨perm, ?_, fun start => ?_⟩
  · apply (List.pairwise_mergeSort transitive total mappings).imp
    intro first second order
    exact of_decide_eq_true order
  · -- The mappings that begin together are in order, so sorting keeps them in theirs.
    have together : (mappings.filter (·.generated.start = start)).Pairwise fun first second =>
        decide (first.generated.start ≤ second.generated.start) = true := by
      apply List.pairwise_of_forall_mem_list
      intro first isFirst second isSecond
      have same := of_decide_eq_true (List.mem_filter.mp isFirst).2
      have other := of_decide_eq_true (List.mem_filter.mp isSecond).2
      exact decide_eq_true (same.trans other.symm).le
    have kept := (List.sublist_mergeSort transitive total together
      List.filter_sublist).filter (·.generated.start = start)
    rw [List.filter_filter] at kept
    simp only [Bool.and_self] at kept
    exact (kept.eq_of_length (perm.filter _).length_eq.symm).symm

/-! ## Keeping mappings -/

/--
The mappings kept of some in order: each one begins no earlier than the one kept before it ends, or
than a position if it is the first, and ends within a length.
-/
def keptFrom (length position : Nat) : List Mapping → List Mapping
  | [] => []
  | mapping :: others =>
      if position ≤ mapping.generated.start ∧ mapping.generated.stop ≤ length then
        mapping :: keptFrom length mapping.generated.stop others
      else keptFrom length position others

/-- The mappings kept of a lowered markup. -/
def kept (markup : LoweredMarkup) : List Mapping :=
  keptFrom markup.code.byteLength 0 (inOrder markup.mappings)

/-- A mapping is kept if the mappings before it end by where it begins. -/
theorem mem_keptFrom {length position : Nat} {before after : List Mapping} {mapping : Mapping}
    (fits : mapping.generated.stop ≤ length) (reached : position ≤ mapping.generated.start)
    (earlier : ∀ other ∈ before, other.generated.stop ≤ mapping.generated.start) :
    mapping ∈ keptFrom length position (before ++ mapping :: after) := by
  induction before generalizing position with
  | nil =>
      rw [List.nil_append, keptFrom, if_pos ⟨reached, fits⟩]
      exact List.mem_cons_self ..
  | cons other before ih =>
      rw [List.forall_mem_cons] at earlier
      rw [List.cons_append, keptFrom]
      split
      · exact List.mem_cons_of_mem _ (ih earlier.1 earlier.2)
      · exact ih reached earlier.2

/-- **A mapping that begins in no other one is kept, if it ends within the code.** -/
theorem mem_kept {markup : LoweredMarkup} {before after : List Mapping} {mapping : Mapping}
    (whole : markup.mappings = before ++ mapping :: after)
    (fits : mapping.generated.stop ≤ markup.code.byteLength)
    (alone : ∀ other ∈ before ++ after,
      ¬ other.generated.contains mapping.generated.start = true) :
    mapping ∈ markup.kept := by
  have order := areInStableOrder_inOrder markup.mappings
  have member : mapping ∈ inOrder markup.mappings :=
    order.perm.mem_iff.mpr (whole ▸ List.mem_append_right _ (List.mem_cons_self ..))
  obtain ⟨earlier, later, split⟩ := List.append_of_mem member
  have others : (earlier ++ later).Perm (before ++ after) := by
    have same := order.perm
    rw [split, whole] at same
    exact (List.perm_middle.symm.trans (same.trans List.perm_middle)).cons_inv
  rw [kept, split]
  refine mem_keptFrom fits (Nat.zero_le _) ?_
  intro other isOther
  have ascending := order.ascending
  rw [split, List.pairwise_append] at ascending
  have begins := ascending.2.2 other isOther mapping (List.mem_cons_self ..)
  have apart := alone other (others.mem_iff.mp (List.mem_append_left _ isOther))
  rw [Span.contains_iff] at apart
  omega

/-! ## Cutting code where mappings are kept -/

/-- Whether a mapping, if it ends within a text, stands for a part of that text. -/
def IsPartOf (code : Text) (mapping : Mapping) : Prop :=
  mapping.generated.stop ≤ code.byteLength →
    mapping.generated.start ≤ mapping.generated.stop ∧
      code.IsBoundary mapping.generated.start ∧ code.IsBoundary mapping.generated.stop

/-- Code is cut where a mapping has its part of it. -/
theorem cut?_append {gap part rest : Text} {position : Nat} {mapping : Mapping}
    (starts : mapping.generated.start = position + gap.byteLength)
    (stops : mapping.generated.stop = mapping.generated.start + part.byteLength) :
    cut? position (gap ++ (part ++ rest)) mapping =
      some (gap, .replaced mapping.source part, rest) := by
  have before : mapping.generated.start - position = gap.byteLength := by omega
  have length : mapping.generated.length = part.byteLength := by
    rw [Span.length]
    omega
  rw [cut?, if_pos ⟨by omega, by omega⟩, before, length]
  simp

/-- Code is cut only by mappings that begin from its position on and end within it. -/
theorem bounds_of_cut? {position : Nat} {code : Text} {mapping : Mapping}
    {parts : Text × Piece × Text} (cuts : cut? position code mapping = some parts) :
    position ≤ mapping.generated.start ∧
      mapping.generated.stop ≤ position + code.byteLength := by
  rw [cut?] at cuts
  split at cuts
  · rename_i order
    obtain ⟨⟨gap, tail⟩, first, cuts⟩ := Option.bind_eq_some_iff.mp cuts
    obtain ⟨⟨part, rest⟩, second, -⟩ := Option.bind_eq_some_iff.mp cuts
    obtain ⟨rfl, gapLength⟩ := Text.append_eq_of_splitBytes? first
    obtain ⟨rfl, partLength⟩ := Text.append_eq_of_splitBytes? second
    refine ⟨order.1, ?_⟩
    rw [Span.length] at partLength
    rw [Text.byteLength_append, Text.byteLength_append]
    omega
  · cases cuts

/-- A mapping that is kept has a part of the code that is left. -/
theorem IsPartOf.exists_append {before code : Text} {mapping : Mapping}
    (isPart : IsPartOf (before ++ code) mapping)
    (reached : before.byteLength ≤ mapping.generated.start)
    (fits : mapping.generated.stop ≤ (before ++ code).byteLength) :
    ∃ gap part rest, code = gap ++ (part ++ rest) ∧
      mapping.generated.start = before.byteLength + gap.byteLength ∧
      mapping.generated.stop = mapping.generated.start + part.byteLength := by
  obtain ⟨order, ⟨head, tail, atStart, start⟩, ⟨longer, rest, atStop, stop⟩⟩ := isPart fits
  rw [start] at reached
  rw [start, stop] at order
  obtain ⟨gap, rfl⟩ := Text.exists_append_of_byteLength_le atStart reached
  obtain ⟨part, rfl⟩ := Text.exists_append_of_byteLength_le (atStart.symm.trans atStop) order
  refine ⟨gap, part, rest, ?_, ?_, ?_⟩
  · rw [List.append_assoc, List.append_assoc] at atStop
    exact List.append_cancel_left atStop
  · rw [start, Text.byteLength_append]
  · rw [stop, start, Text.byteLength_append]

/-- The mapping of a part of the code, moved to where the code begins. -/
theorem mapping?_replaced {gap before part : Text} {mapping : Mapping}
    (starts : mapping.generated.start = before.byteLength + gap.byteLength)
    (stops : mapping.generated.stop = mapping.generated.start + part.byteLength) (offset : Nat) :
    ((Piece.replaced mapping.source part).mapping?
        (offset + before.byteLength + gap.byteLength)).toList =
      ([mapping].filter (·.HasText)).map (·.moved offset) := by
  have place : offset + before.byteLength + gap.byteLength = mapping.generated.start + offset := by
    omega
  have hasText : mapping.HasText ↔ part ≠ [] := by
    rw [← Text.byteLength_pos_iff, Mapping.HasText]
    omega
  rw [Piece.mapping?, Piece.text, place]
  by_cases empty : part = []
  · have left : ¬ mapping.HasText := fun nonempty => hasText.mp nonempty empty
    rw [if_pos empty, List.filter_cons_of_neg (by simpa using left)]
    rfl
  · have moved : mapping.moved offset =
        ⟨.ofLength (mapping.generated.start + offset) part.byteLength, mapping.source⟩ := by
      rw [Mapping.moved, Span.shift, stops, Span.ofLength, Nat.add_right_comm]
    rw [if_neg empty, List.filter_cons_of_pos (by simpa using hasText.mpr empty), Piece.source?]
    simp [moved]

/-- The pieces of code from a position on have the mappings kept from there. -/
theorem mappingsFrom_piecesFrom {before code : Text} {mappings : List Mapping}
    (areParts : ∀ mapping ∈ mappings, IsPartOf (before ++ code) mapping) (offset : Nat) :
    (piecesFrom before.byteLength code mappings).mappingsFrom (offset + before.byteLength) =
      ((keptFrom (before ++ code).byteLength before.byteLength mappings).filter (·.HasText)).map
        (·.moved offset) := by
  induction mappings generalizing before code with
  | nil => simp [piecesFrom, keptFrom]
  | cons mapping others ih =>
      rw [List.forall_mem_cons] at areParts
      rw [piecesFrom, keptFrom]
      by_cases isKept : before.byteLength ≤ mapping.generated.start ∧
          mapping.generated.stop ≤ (before ++ code).byteLength
      · obtain ⟨gap, part, rest, rfl, starts, stops⟩ :=
          areParts.1.exists_append isKept.1 isKept.2
        have whole : before ++ (gap ++ (part ++ rest)) = (before ++ gap ++ part) ++ rest := by
          simp
        have stop : mapping.generated.stop = (before ++ gap ++ part).byteLength := by
          rw [stops, starts, Text.byteLength_append, Text.byteLength_append]
        have own := mapping?_replaced starts stops offset
        have later := ih (whole ▸ areParts.2)
        rw [if_pos isKept, cut?_append starts stops]
        simp only [Assembly.mappingsFrom_synthetic_cons, Assembly.mappingsFrom_replaced_cons]
        rw [own, ← List.singleton_append (l := keptFrom _ _ _), List.filter_append,
          List.map_append, stop, whole, ← later]
        simp only [Text.byteLength_append, Nat.add_assoc]
      · have uncut : cut? before.byteLength code mapping = none := by
          rw [Option.eq_none_iff_forall_ne_some]
          intro parts cuts
          exact isKept (Text.byteLength_append before code ▸ bounds_of_cut? cuts)
        rw [if_neg isKept, uncut]
        exact ih areParts.2

/-- **The pieces of a lowered markup have the mappings that it keeps.** -/
theorem mappingsFrom_pieces {markup : LoweredMarkup}
    (areParts : ∀ mapping ∈ markup.mappings, IsPartOf markup.code mapping) (offset : Nat) :
    markup.pieces.mappingsFrom offset =
      (markup.kept.filter (·.HasText)).map (·.moved offset) := by
  have order := areInStableOrder_inOrder markup.mappings
  have inOrder : ∀ mapping ∈ inOrder markup.mappings, IsPartOf ([] ++ markup.code) mapping :=
    fun mapping member => areParts mapping (order.perm.mem_iff.mp member)
  exact mappingsFrom_piecesFrom inOrder offset

end LoweredMarkup

end ComponentTsx
