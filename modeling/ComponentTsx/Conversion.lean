import ComponentTsx.SourceMap.Artifact
import ComponentTsx.Transform

/-!
# Converting a component source

A conversion takes a component source to the code of its TSX document.  The
source map can be handed over beside the code, or in it as the last line, or
both ways.
-/

namespace ComponentTsx

set_option autoImplicit false

/-- How the source map of a conversion is handed over. -/
inductive MapDelivery where
  | omitted
  | external
  | inline
  | both
deriving DecidableEq, Repr

namespace MapDelivery

/-- Whether the map is handed over beside the code. -/
def isExternal : MapDelivery → Bool
  | external | both => true
  | _ => false

/-- Whether the map is written into the code. -/
def isInline : MapDelivery → Bool
  | inline | both => true
  | _ => false

/-- The name of a way of delivery. -/
def name : MapDelivery → String
  | omitted => "none"
  | external => "external"
  | inline => "inline"
  | both => "both"

/-- The way of delivery with a name. -/
def ofName? (name : Text) : Option MapDelivery :=
  [omitted, external, inline, both].find? (·.name.toList = name)

end MapDelivery

/-- The outcome of a conversion. -/
structure Conversion where
  /-- The code, with an inline source map if there is one. -/
  code : Text
  /-- The external source map, if there is one. -/
  map : Option Text
  /-- The properties of the component. -/
  props : Props
  /-- The errors of the component source. -/
  errors : List ParseError
deriving DecidableEq, Repr

namespace Conversion

/-- The name a source map has for the component: the base name of its file. -/
def sourceName (filename : Option Text) : Text :=
  let base := ComponentName.baseName (filename.getD [])
  if base = [] then ComponentName.stdinFilename else base

/-- What precedes an inline source map. -/
def inlineOpening : Text :=
  "\n//# sourceMappingURL=data:application/json;charset=utf-8;base64,".toList

/-- A source map as a line of the code. -/
def inlineMap (map : Text) : Text := inlineOpening ++ Base64.encode map.utf8

/-- The source map of a document as written out. -/
def mapText (source : Text) (filename : Option Text) (document : TsxDocument) : Text :=
  let name := sourceName filename
  (document.map.toSourceMap.artifact (name ++ ".tsx".toList) name source document.code).toJson

/--
The conversion of a component source.  It never fails: what is wrong with a source is told beside
the code, and a source map, being made of numbers and texts, can always be written as JSON.
-/
def ofSource (source : Text) (filename : Option Text) (delivery : MapDelivery) : Conversion :=
  let component := Component.parse source
  let document := transform component filename .passthrough
  let map := mapText source filename document
  { code := document.code ++ if delivery.isInline then inlineMap map else []
    map := if delivery.isExternal then some map else none
    props := document.props
    errors := component.errors }

end Conversion

end ComponentTsx
