import ComponentTsx.Span

/-!
# Source maps

A mapping ties a span of a generated text to the span of a source text that it
stands for.  A mapping between spans of equal length is verbatim: it maps
offset to offset.  Any other mapping stands for its source span as a whole, so
every offset in it leads to the beginning of the other side.

A source map lists its mappings in the order of their generated spans.
-/

namespace ComponentTsx

set_option autoImplicit false

/-- A span of the generated text and the source span it stands for. -/
structure Mapping where
  generated : Span
  source : Span
deriving DecidableEq, Repr

namespace Mapping

/-- Whether the spans correspond byte by byte. -/
def isVerbatim (mapping : Mapping) : Bool := mapping.generated.length = mapping.source.length

/-- The source offset that a generated offset of the mapping leads to. -/
def toSource (mapping : Mapping) (offset : Nat) : Nat :=
  if mapping.isVerbatim then mapping.source.start + (offset - mapping.generated.start)
  else mapping.source.start

/-- The generated offset that a source offset of the mapping leads to. -/
def toGenerated (mapping : Mapping) (offset : Nat) : Nat :=
  if mapping.isVerbatim then mapping.generated.start + (offset - mapping.source.start)
  else mapping.generated.start

end Mapping

/-- Mappings in the order of their generated spans. -/
structure SourceMap where
  mappings : List Mapping := []
deriving DecidableEq, Repr

namespace SourceMap

/-- The last mapping that begins at a generated offset or before it. -/
def lastStartingBy? (map : SourceMap) (offset : Nat) : Option Mapping :=
  (map.mappings.takeWhile (·.generated.start ≤ offset)).getLast?

/-- The source offset of a generated one; none in generated text that no mapping covers. -/
def sourcePosition? (map : SourceMap) (offset : Nat) : Option Nat := do
  let mapping ← map.lastStartingBy? offset
  if mapping.generated.contains offset then some (mapping.toSource offset) else none

/-- The generated offset of a source one, by the first mapping whose source span covers it. -/
def generatedPosition? (map : SourceMap) (offset : Nat) : Option Nat :=
  (map.mappings.find? (·.source.contains offset)).map (·.toGenerated offset)

end SourceMap

end ComponentTsx
