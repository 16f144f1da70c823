import ComponentTsx.Assembly
import ComponentTsx.Offset

/-!
# Source maps while they are built

A source map is built, kept and searched in offsets.  A builder is told of the
pieces of the generated text, one after the other.  It keeps their mappings and
the length of all texts so far, which wraps around as offsets do: what follows a
text that reaches the limit begins anew at zero.
-/

namespace ComponentTsx

set_option autoImplicit false

/-- A span of the generated text and the source span it stands for. -/
structure OffsetMapping where
  generated : OffsetSpan
  source : OffsetSpan
deriving DecidableEq, Repr

namespace OffsetMapping

/-- A mapping in offsets, as far as these go. -/
def ofMapping (mapping : Mapping) : OffsetMapping :=
  ⟨.ofSpan mapping.generated, .ofSpan mapping.source⟩

/-- The mapping in numbers. -/
def toMapping (mapping : OffsetMapping) : Mapping :=
  ⟨mapping.generated.toSpan, mapping.source.toSpan⟩

/-- Whether the spans correspond byte by byte. -/
def isVerbatim (mapping : OffsetMapping) : Bool :=
  mapping.generated.length = mapping.source.length

/-- The source offset that a generated offset of the mapping leads to. -/
def toSource (mapping : OffsetMapping) (offset : Offset) : Offset :=
  if mapping.isVerbatim then mapping.source.start + (offset - mapping.generated.start)
  else mapping.source.start

/-- The generated offset that a source offset of the mapping leads to. -/
def toGenerated (mapping : OffsetMapping) (offset : Offset) : Offset :=
  if mapping.isVerbatim then mapping.generated.start + (offset - mapping.source.start)
  else mapping.generated.start

end OffsetMapping

/-- Mappings in the order of their generated spans. -/
structure OffsetMap where
  mappings : List OffsetMapping := []
deriving DecidableEq, Repr

namespace OffsetMap

/-- A source map in offsets, as far as these go. -/
def ofSourceMap (map : SourceMap) : OffsetMap := ⟨map.mappings.map .ofMapping⟩

/-- The source map in numbers. -/
def toSourceMap (map : OffsetMap) : SourceMap := ⟨map.mappings.map (·.toMapping)⟩

/-- The last mapping that begins at a generated offset or before it. -/
def lastStartingBy? (map : OffsetMap) (offset : Offset) : Option OffsetMapping :=
  (map.mappings.takeWhile (·.generated.start ≤ offset)).getLast?

/-- The source offset of a generated one; none in generated text that no mapping covers. -/
def sourcePosition? (map : OffsetMap) (offset : Offset) : Option Offset := do
  let mapping ← map.lastStartingBy? offset
  if mapping.generated.contains offset then some (mapping.toSource offset) else none

/-- The generated offset of a source one, by the first mapping whose source span covers it. -/
def generatedPosition? (map : OffsetMap) (offset : Offset) : Option Offset :=
  (map.mappings.find? (·.source.contains offset)).map (·.toGenerated offset)

end OffsetMap

/-- A source map while the generated text is put together. -/
structure MapBuilder where
  mappings : List OffsetMapping := []
  /-- The length of all texts so far. -/
  length : Offset := 0
deriving DecidableEq, Repr

namespace MapBuilder

/-- Adds a text that stands for a source span; an empty text has no mapping. -/
def addReplaced (builder : MapBuilder) (source : OffsetSpan) (text : Text) : MapBuilder :=
  let generated := OffsetSpan.ofLength builder.length text.byteLength
  ⟨if generated.isEmpty then builder.mappings else builder.mappings ++ [⟨generated, source⟩],
    generated.stop⟩

/-- Adds the text that begins at an offset of the source. -/
def addCopied (builder : MapBuilder) (start : Offset) (text : Text) : MapBuilder :=
  builder.addReplaced (.ofLength start text.byteLength) text

/-- Adds a text that the source does not have. -/
def addSynthetic (builder : MapBuilder) (text : Text) : MapBuilder :=
  { builder with length := builder.length + UInt32.ofNat text.byteLength }

/-- Adds a piece. -/
def add (builder : MapBuilder) : Piece → MapBuilder
  | .copied start text => builder.addCopied (UInt32.ofNat start) text
  | .replaced source text => builder.addReplaced (.ofSpan source) text
  | .synthetic text => builder.addSynthetic text

/-- The builder that was told of all pieces of an assembly. -/
def ofAssembly (assembly : Assembly) : MapBuilder := assembly.foldl add {}

/-- The source map of what was added, its mappings sorted by where they begin. -/
def build (builder : MapBuilder) : OffsetMap :=
  ⟨builder.mappings.mergeSort fun first second => first.generated.start ≤ second.generated.start⟩

end MapBuilder

end ComponentTsx
