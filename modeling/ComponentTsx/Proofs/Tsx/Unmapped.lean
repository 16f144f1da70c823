import ComponentTsx.Proofs.SourceMap.Unmapped
import ComponentTsx.Proofs.Tsx.Positions

/-!
# What a document adds has no place in its artifact

In a document the copy of the preamble and the copy of the markup are each
followed by a line feed of the document's own, so its artifact does not answer
for what the document adds (`lookup_artifact_of_unmapped`).  The only exception
is that line feed itself, where it ends a line that the copy began.
-/

namespace ComponentTsx

set_option autoImplicit false

namespace Tsx

section Copies

variable (component : Component) (filename : Option Text)

/-- A preamble that is not empty is followed by a line feed. -/
theorem exists_glueBetween_eq_cons (nonempty : component.preambleText ≠ []) :
    ∃ rest, glueBetween component = '\n' :: rest := by
  obtain ⟨frontmatter, markup⟩ := component
  cases frontmatter with
  | none => exact absurd rfl nonempty
  | some frontmatter => exact ⟨_, rfl⟩

/-- The markup is followed by a line feed. -/
theorem exists_glueAfter_eq_cons : ∃ rest, glueAfter component filename = '\n' :: rest := by
  rw [glueAfter, closingTag]
  split
  · exact ⟨_, rfl⟩
  · exact ⟨_, rfl⟩

/-- The mappings of a document are those of its copies, unless these are empty. -/
theorem mem_mappings_copiedPieces {mapping : Mapping}
    (member : mapping ∈ (copiedPieces component filename).sourceMap.mappings) :
    component.preambleText ≠ [] ∧
        mapping = ⟨preambleCopy component, component.preambleSpan⟩ ∨
      mapping = ⟨markupCopy component, component.markupSpan⟩ := by
  rw [mappings_copiedPieces, List.mem_append, Option.mem_toList, Option.mem_toList] at member
  obtain ⟨generated, source⟩ := mapping
  rcases member with inPreamble | inMarkup
  · obtain ⟨nonempty, isSource, place⟩ := Piece.mapping?_eq_some_iff.mp inPreamble
    obtain rfl : component.preambleSpan = source :=
      component.preambleSpan_eq.trans (Option.some.inj isSource)
    exact .inl ⟨nonempty, congrArg (Mapping.mk · _) place⟩
  · obtain ⟨_, isSource, place⟩ := Piece.mapping?_eq_some_iff.mp inMarkup
    obtain rfl : component.markupSpan = source := Option.some.inj isSource
    exact .inr (congrArg (Mapping.mk · _) place)

/-- A line feed follows each copy in a document. -/
theorem breaksAfterCopies_copiedPieces :
    (copiedPieces component filename).BreaksAfterCopies where
  isVerbatim mapping member := by
    rcases mem_mappings_copiedPieces component filename member with ⟨-, rfl⟩ | rfl
    · rw [component.preambleSpan_eq]
      simp [Mapping.isVerbatim, preambleCopy]
    · simp [Mapping.isVerbatim, markupCopy, Component.markupSpan]
  followed mapping member := by
    rw [text_copiedPieces]
    rcases mem_mappings_copiedPieces component filename member with ⟨nonempty, rfl⟩ | rfl
    · obtain ⟨rest, isBreak⟩ := exists_glueBetween_eq_cons component nonempty
      refine ⟨rest ++ component.markup ++ glueAfter component filename, ?_⟩
      rw [isBreak, preambleCopy, Span.stop_ofLength, Nat.zero_add, List.append_assoc,
        List.append_assoc, Text.dropBytes?_append]
      simp
    · obtain ⟨rest, isBreak⟩ := exists_glueAfter_eq_cons component filename
      exact ⟨rest, by
        rw [isBreak, markupCopy, Span.stop_ofLength, ← Text.byteLength_append,
          Text.dropBytes?_append]⟩

end Copies

end Tsx

end ComponentTsx
