import ComponentTsx.Assembly
import ComponentTsx.Json.Quoted
import ComponentTsx.LineIndex
import ComponentTsx.SourceMap.Vlq

/-!
# Source Map revision 3 artifacts

The artifact of a source map speaks of lines and UTF-16 columns.  Its segments
pair a generated position with a source position: one segment where each mapping
begins, and one at each line that begins inside a verbatim mapping.

Segments are kept in the order of their generated positions.  They are written
relative to the segment before, a semicolon for each line break and a comma
between segments of a line.
-/

namespace ComponentTsx

set_option autoImplicit false

namespace SourceMap

/-- A generated position and the source position it comes from. -/
structure Segment where
  generated : Position
  source : Position
deriving DecidableEq, Repr, Inhabited

/-- The distances from the start of a text to the beginnings of its later lines. -/
def lineStartDistances (text : Text) : List Nat :=
  ((LineIndex.ofText text).lines.toList.drop 1).map (·.start)

/-- The distances into a mapping at which it has segments. -/
def segmentDistances (mapping : Mapping) (generatedText : Text) : List Nat :=
  let lines :=
    if mapping.isVerbatim then
      (lineStartDistances (mapping.generated.slice generatedText)).filter
        (· < mapping.generated.length)
    else []
  0 :: lines

/-- The segments of a source map, given the two texts it relates. -/
def segments (map : SourceMap) (sourceText generatedText : Text) : List Segment :=
  let sourceIndex := LineIndex.ofText sourceText
  let generatedIndex := LineIndex.ofText generatedText
  map.mappings.flatMap fun mapping =>
    (segmentDistances mapping generatedText).map fun distance =>
      ⟨generatedIndex.positionUtf16 (mapping.generated.start + distance),
        sourceIndex.positionUtf16 (mapping.source.start + distance)⟩

/-- A revision 3 source map of one source, with the source's text. -/
structure Artifact where
  /-- The name of the generated file. -/
  file : Text
  /-- The name of the source. -/
  sourceName : Text
  /-- The text of the source. -/
  content : Text
  /-- The segments, in the order of their generated positions. -/
  segments : List Segment
deriving DecidableEq, Repr

/-- The artifact of a source map.  Segments at one generated position keep their order. -/
def artifact (map : SourceMap) (file sourceName sourceText generatedText : Text) : Artifact where
  file := file
  sourceName := sourceName
  content := sourceText
  segments := (map.segments sourceText generatedText).mergeSort
    fun first second => first.generated.le second.generated

namespace Artifact

/-! ## Written form -/

/-- The fields of a segment: its generated column, the number of its source, its source position. -/
def encodeFields (columnBefore : Nat) (sourceBefore : Position) (segment : Segment) : Text :=
  Vlq.encode ((segment.generated.column : Int) - columnBefore) ++ Vlq.encode 0 ++
    Vlq.encode ((segment.source.line : Int) - sourceBefore.line) ++
    Vlq.encode ((segment.source.column : Int) - sourceBefore.column)

/-- The written form of segments that follow the segment `before`, if there is one. -/
def encodeAfter (before : Option Segment) : List Segment → Text
  | [] => []
  | segment :: rest =>
      let last := before.getD default
      let breaks := segment.generated.line - last.generated.line
      let separator :=
        if breaks = 0 then (if before.isSome then [','] else []) else List.replicate breaks ';'
      let columnBefore := if breaks = 0 then last.generated.column else 0
      separator ++ encodeFields columnBefore last.source segment ++
        encodeAfter (some segment) rest

/-- The written form of the segments; a segment equal to the one before is written once. -/
def encodeSegments (segments : List Segment) : Text := encodeAfter none segments.eraseReps

/-- The artifact as compact JSON. -/
def toJson (artifact : Artifact) : Text :=
  "\x7b\"version\":3,\"file\":".toList ++ Json.quote artifact.file ++
    ",\"sources\":[".toList ++ Json.quote artifact.sourceName ++
    "],\"sourcesContent\":[".toList ++ Json.quote artifact.content ++
    "],\"names\":[],\"mappings\":".toList ++
    Json.quote (encodeSegments artifact.segments) ++ "\x7d".toList

/-! ## Lookup -/

/--
The segment that a generated position belongs to.  Of several segments at the position itself it is
the first; if there is none, it is the last segment before.
-/
def segmentAt? (artifact : Artifact) (position : Position) : Option Segment :=
  (artifact.segments.find? (·.generated = position)).orElse fun _ =>
    (artifact.segments.takeWhile (·.generated.le position)).getLast?

/-- The source position of a generated one, if a segment of the same line precedes it. -/
def lookup (artifact : Artifact) (position : Position) : Option Position :=
  ((artifact.segmentAt? position).filter (·.generated.line = position.line)).map (·.source)

end Artifact

end SourceMap

end ComponentTsx
