import ComponentTsx.Proofs.Assembly.Building
import ComponentTsx.Proofs.SourceMap.Unmapped

/-!
# Positions there and back

The two directions of a source map are searched in different ways.  A generated
offset belongs to the only mapping whose generated span has it.  Source spans
may overlap in any manner, and a source offset belongs to the first mapping
whose source span has it (`IsFirstFor`).

The two still agree.  An offset of either span of a mapping leads into the other
span, so whoever goes from the source to the generated text comes back by the
same mapping.  The way from the generated text and back to it may take another
mapping, unless source spans have no offset in common (`build_returns`).
-/

namespace ComponentTsx

set_option autoImplicit false

/-! ## Spans with no common offset -/

namespace Span

/-- Whether no offset lies in both spans. -/
def Disjoint (first second : Span) : Prop :=
  ∀ offset, ¬ (first.contains offset = true ∧ second.contains offset = true)

theorem disjoint_iff {first second : Span} :
    first.Disjoint second ↔ min first.stop second.stop ≤ max first.start second.start := by
  constructor
  · intro disjoint
    by_contra common
    apply disjoint (max first.start second.start)
    simp only [contains_iff]
    omega
  · intro order offset
    simp only [contains_iff]
    omega

instance (first second : Span) : Decidable (first.Disjoint second) :=
  decidable_of_iff _ disjoint_iff.symm

end Span

/-! ## The two spans of a mapping -/

namespace Mapping

variable {mapping : Mapping} {offset : Nat}

theorem isVerbatim_iff :
    mapping.isVerbatim = true ↔ mapping.generated.length = mapping.source.length :=
  decide_eq_true_iff

/-- A source offset of a mapping leads into its generated span. -/
theorem contains_toGenerated (nonempty : mapping.generated.start < mapping.generated.stop)
    (inside : mapping.source.contains offset = true) :
    mapping.generated.contains (mapping.toGenerated offset) = true := by
  rw [Span.contains_iff] at inside ⊢
  rw [toGenerated]
  split
  · rename_i verbatim
    have sameLength := isVerbatim_iff.mp verbatim
    simp only [Span.length] at sameLength
    omega
  · exact ⟨Nat.le_refl _, nonempty⟩

/-- A source offset of a mapping leads back to itself, or to where its source span begins. -/
theorem toSource_toGenerated (inside : mapping.source.contains offset = true) :
    mapping.toSource (mapping.toGenerated offset) =
      if mapping.isVerbatim then offset else mapping.source.start := by
  rw [Span.contains_iff] at inside
  rw [toSource, toGenerated]
  split
  · omega
  · rfl

/-- A generated offset of a verbatim mapping leads into its source span. -/
theorem contains_toSource (verbatim : mapping.isVerbatim = true)
    (inside : mapping.generated.contains offset = true) :
    mapping.source.contains (mapping.toSource offset) = true := by
  rw [Span.contains_iff] at inside ⊢
  have sameLength := isVerbatim_iff.mp verbatim
  simp only [Span.length] at sameLength
  rw [toSource, if_pos verbatim]
  omega

/-- A generated offset of a verbatim mapping leads back to itself. -/
theorem toGenerated_toSource (verbatim : mapping.isVerbatim = true)
    (inside : mapping.generated.contains offset = true) :
    mapping.toGenerated (mapping.toSource offset) = offset := by
  rw [Span.contains_iff] at inside
  rw [toGenerated, toSource, if_pos verbatim, if_pos verbatim]
  omega

end Mapping

/-! ## The mapping that answers -/

namespace SourceMap

variable {map : SourceMap} {source generated : Nat} {mapping : Mapping}

/-- The mapping of a source offset: the first one whose source span has it. -/
def IsFirstFor (map : SourceMap) (source : Nat) (mapping : Mapping) : Prop :=
  mapping.source.contains source = true ∧
    ∃ before after, map.mappings = before ++ mapping :: after ∧
      ∀ earlier ∈ before, earlier.source.contains source = false

theorem generatedPosition?_eq_some_iff :
    map.generatedPosition? source = some generated ↔
      ∃ mapping, map.IsFirstFor source mapping ∧ mapping.toGenerated source = generated := by
  rw [generatedPosition?, Option.map_eq_some_iff]
  simp only [List.find?_eq_some_iff_append, IsFirstFor, Bool.not_eq_true']

theorem generatedPosition?_eq_none_iff :
    map.generatedPosition? source = none ↔
      ∀ mapping ∈ map.mappings, ¬ mapping.source.contains source = true := by
  rw [generatedPosition?, Option.map_eq_none_iff, List.find?_eq_none]

theorem IsFirstFor.mem (isFirst : map.IsFirstFor source mapping) : mapping ∈ map.mappings := by
  obtain ⟨-, before, after, whole, -⟩ := isFirst
  rw [whole]
  exact List.mem_append_right before (List.mem_cons_self ..)

/-- A source offset in one source span only belongs to the mapping of that span. -/
theorem isFirstFor_of_pairwise_disjoint
    (disjoint : map.mappings.Pairwise fun first second => first.source.Disjoint second.source)
    (member : mapping ∈ map.mappings) (inside : mapping.source.contains source = true) :
    map.IsFirstFor source mapping := by
  obtain ⟨before, after, whole⟩ := List.append_of_mem member
  refine ⟨inside, before, after, whole, ?_⟩
  intro earlier isEarlier
  rw [whole, List.pairwise_append] at disjoint
  have apart := disjoint.2.2 earlier isEarlier mapping (List.mem_cons_self ..)
  rw [← Bool.not_eq_true]
  exact fun common => apart source ⟨common, inside⟩

/-- Only offsets of generated spans have a source offset. -/
theorem exists_of_sourcePosition?_eq_some (found : map.sourcePosition? generated = some source) :
    ∃ mapping ∈ map.mappings, mapping.generated.contains generated = true ∧
      mapping.toSource generated = source := by
  obtain ⟨mapping, last, answer⟩ := Option.bind_eq_some_iff.mp found
  split at answer
  · rename_i inside
    have member := (List.takeWhile_sublist _).subset (List.mem_of_getLast? last)
    exact ⟨mapping, member, inside, Option.some.inj answer⟩
  · cases answer

end SourceMap

/-! ## There and back -/

namespace Assembly

/-- A generated offset has a source offset exactly when a mapping's generated span has it. -/
theorem isSome_sourcePosition?_iff (assembly : Assembly) {generated : Nat} :
    (assembly.sourceMap.sourcePosition? generated).isSome ↔
      ∃ mapping ∈ assembly.sourceMap.mappings, mapping.generated.contains generated = true := by
  rw [Option.isSome_iff_exists]
  constructor
  · rintro ⟨source, found⟩
    obtain ⟨mapping, member, inside, -⟩ := SourceMap.exists_of_sourcePosition?_eq_some found
    exact ⟨mapping, member, inside⟩
  · rintro ⟨mapping, member, inside⟩
    exact ⟨_, sourcePosition?_of_contains member inside⟩

/-- The way back from where a source offset leads is by the same mapping. -/
theorem sourcePosition?_toGenerated (assembly : Assembly) {mapping : Mapping} {source : Nat}
    (member : mapping ∈ assembly.sourceMap.mappings)
    (inside : mapping.source.contains source = true) :
    assembly.sourceMap.sourcePosition? (mapping.toGenerated source) =
      some (if mapping.isVerbatim then source else mapping.source.start) := by
  have nonempty := (bounds_of_mem_mappingsFrom member).2.1
  rw [sourcePosition?_of_contains member (Mapping.contains_toGenerated nonempty inside),
    Mapping.toSource_toGenerated inside]

end Assembly

end ComponentTsx
