import ComponentTsx.Conversion
import ComponentTsx.Proofs.Base64.Decoding
import ComponentTsx.Proofs.SourceMap.Decoding
import ComponentTsx.Proofs.Tsx.Emission

/-!
# The ways of handing a source map over

A conversion comes to the same code and the same map, however the map is handed
over.  Beside the code the map is JSON; in the code it is the same JSON in base64,
after all of the code that it is a map of (`ofSource_deliveries`).  A reader of the
JSON finds the source, and each segment of the source map of the document.
-/

namespace ComponentTsx.Conversion

set_option autoImplicit false

/-- What an inline map adds to the code reads back as the map. -/
theorem exists_encoded_inlineMap (map : Text) :
    ∃ encoded, inlineMap map =
        "\n//# sourceMappingURL=data:application/json;charset=utf-8;base64,".toList ++ encoded ∧
      Base64.decode? encoded = some map.utf8 :=
  ⟨Base64.encode map.utf8, rfl, Base64.decode?_encode map.utf8⟩

/-- Below the limit of offsets the text of a map reads back as the source map of the document. -/
theorem ofJson?_mapText {source : Text} {filename : Option Text}
    (smallSource : source.byteLength < UInt32.size)
    (smallCode : (transform (Component.parse source) filename .passthrough).code.byteLength <
      UInt32.size) :
    let document := transform (Component.parse source) filename .passthrough
    SourceMap.Artifact.ofJson? (mapText source filename document) =
      some ⟨sourceName filename ++ ".tsx".toList, sourceName filename, source,
        (Tsx.ofComponent (Component.parse source) filename .passthrough).sourceMap.listedSegments
          source document.code⟩ := by
  intro document
  obtain ⟨isMap, fits⟩ := map_transform smallSource smallCode
  have isCode : document.code = (Tsx.ofComponent (Component.parse source) filename
      .passthrough).assembly.text := congrArg TsxDocument.code (transform_eq _ _ _)
  rw [mapText, isMap, OffsetMap.toSourceMap_ofSourceMap fits, isCode]
  exact (SourceMap.ofJson?_toJson_artifact _ _ _ source).1

/--
**The four ways of delivery agree.**  They differ in nothing but where the map is: beside the code,
in base64 at the end of the code, both, or nowhere.  As long as neither the source nor the code
reaches the limit of offsets, the map names the document and the component, has the source, and has
the segments of the document's source map.
-/
theorem ofSource_deliveries (source : Text) (filename : Option Text) :
    let made := ofSource source filename
    let tsx := Tsx.ofComponent (Component.parse source) filename .passthrough
    (∀ delivery, (made delivery).props = (made .omitted).props ∧
      (made delivery).errors = (made .omitted).errors) ∧
    (made .external).code = (made .omitted).code ∧ (made .both).code = (made .inline).code ∧
    (made .omitted).map = none ∧ (made .inline).map = none ∧
    ∃ map encoded, (made .external).map = some map ∧ (made .both).map = some map ∧
      (made .inline).code = (made .omitted).code ++
        "\n//# sourceMappingURL=data:application/json;charset=utf-8;base64,".toList ++ encoded ∧
      Base64.decode? encoded = some map.utf8 ∧
      (source.byteLength < UInt32.size → (made .omitted).code.byteLength < UInt32.size →
        SourceMap.Artifact.ofJson? map = some ⟨sourceName filename ++ ".tsx".toList,
          sourceName filename, source,
          tsx.sourceMap.listedSegments source (made .omitted).code⟩) := by
  intro made tsx
  let document := transform (Component.parse source) filename .passthrough
  obtain ⟨encoded, isInline, reads⟩ := exists_encoded_inlineMap (mapText source filename document)
  have isCode : (made .omitted).code = document.code := List.append_nil _
  refine ⟨fun delivery => ⟨rfl, rfl⟩, rfl, rfl, rfl, rfl, _, encoded, rfl, rfl, ?_, reads,
    fun smallSource smallCode => ?_⟩
  · rw [List.append_assoc, ← isInline]
    simp [made, document, ofSource, MapDelivery.isInline]
  · rw [isCode] at smallCode ⊢
    exact ofJson?_mapText smallSource smallCode

/-- A markup of two lines has a segment for each of them. -/
theorem ofSource_deliveries_lines :
    let source : Text := "<p>\né".toList
    let made := ofSource source (some "a/B.astro".toList)
    ∃ map, (made .external).map = some map ∧
      SourceMap.Artifact.ofJson? map = some ⟨"B.astro.tsx".toList, "B.astro".toList, source,
        [⟨⟨1, 0⟩, ⟨0, 0⟩⟩, ⟨⟨2, 0⟩, ⟨1, 0⟩⟩]⟩ := by
  intro source made
  obtain ⟨_, _, _, _, _, map, _, isMap, _, _, _, reads⟩ :=
    ofSource_deliveries source (some "a/B.astro".toList)
  refine ⟨map, isMap, (reads (by decide +kernel) (by decide +kernel)).trans ?_⟩
  decide +kernel

end ComponentTsx.Conversion
