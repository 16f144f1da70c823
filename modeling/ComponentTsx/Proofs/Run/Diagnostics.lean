import ComponentTsx.Proofs.Component.Places
import ComponentTsx.Proofs.Run.Conversions

/-!
# What a run shows of errors

The errors of a component source are told twice: as warnings in the summary, and as
diagnostics, which label a part of the source.  What a diagnostic labels is the fence
that nothing closes (`slice?_ofError`), and it begins where the warning is.  So a run
for people shows the warnings of its summary, in their order and each with the path of
its component, and a run for programs shows nothing (`run_shows_warnings`).
-/

namespace ComponentTsx

set_option autoImplicit false

/-! ## Labelled parts -/

namespace Component

/-- An error is about a fence. -/
theorem slice?_of_mem_errors {source : Text} {error : ParseError}
    (isError : error ∈ (parse source).errors) :
    source.slice? error.span.start error.span.stop = some fence := by
  have parts := parse_parts source
  simp only at parts
  split at parts
  · rcases parts with ⟨frontmatter, line, closed⟩ | ⟨frontmatter, unclosed⟩
    · rw [closed.errors_eq] at isError
      cases isError
    · rw [unclosed.errors_eq, List.mem_singleton] at isError
      rw [isError]
      exact unclosed.openingFence_place.cuts
  · rw [parts.errors_eq] at isError
    cases isError

end Component

namespace Diagnostic

/-- **A diagnostic labels a fence**, where the error is. -/
theorem slice?_ofError {source : Text} {error : ParseError}
    (isError : error ∈ (Component.parse source).errors) :
    (ofError source error).offset = error.span.start ∧
      source.slice? (ofError source error).offset
        ((ofError source error).offset + (ofError source error).length) = some fence := by
  have cut := Component.slice?_of_mem_errors isError
  obtain ⟨before, after, whole, start⟩ := Text.exists_append_of_slice? cut
  have stop := Text.add_byteLength_of_slice? cut
  have size := congrArg Text.byteLength whole
  simp only [Text.byteLength_append] at size
  have isOffset : (ofError source error).offset = error.span.start :=
    Nat.min_eq_left (by omega)
  have isLength : (ofError source error).length = error.span.stop - error.span.start := by
    have starts : min error.span.start source.byteLength = error.span.start :=
      Nat.min_eq_left (by omega)
    have stops : min error.span.stop source.byteLength = error.span.stop :=
      Nat.min_eq_left (by omega)
    change min error.span.stop source.byteLength - min error.span.start source.byteLength = _
    rw [starts, stops]
  have reaches : error.span.start + (error.span.stop - error.span.start) = error.span.stop :=
    Nat.add_sub_cancel' (by omega)
  rw [isOffset, isLength, reaches]
  exact ⟨rfl, cut⟩

/-- What a warning and a diagnostic have in common: the words and the place. -/
def told (diagnostic : Diagnostic) : Text × Nat := (diagnostic.message.toList, diagnostic.offset)

/-- Diagnostics tell of the errors that warnings tell of. -/
theorem told_ofErrors (path source : Text) :
    ((Component.parse source).errors.map fun error => (path, ofError source error)).map
        (Prod.map id told) =
      (Warning.ofErrors source (Component.parse source).errors).map fun warning =>
        (path, warning.message, warning.offset) := by
  rw [Warning.ofErrors, List.map_map, List.map_map]
  refine List.map_congr_left fun error isError => ?_
  exact Prod.ext rfl (Prod.ext rfl (slice?_ofError isError).1)

end Diagnostic

/-! ## Whole runs -/

/-- The warnings of a report, each with the path of the file. -/
def FileReport.told (report : FileReport) : List (Text × Text × Nat) :=
  report.warnings.map fun warning => (report.path, warning.message, warning.offset)

/-- A file is shown with its warnings, whether its code can be written or not. -/
theorem told_convertFile (settings : RunSettings) (files : FileSystem) (file : Path)
    (device : Device) :
    (convertFile settings files file device).shown.map (Prod.map id Diagnostic.told) =
      (convertFile settings files file device).report.told := by
  have together {path source : Text} :
      (((Component.parse source).errors.map (Diagnostic.ofError source)).map fun diagnostic =>
          (path, diagnostic)).map (Prod.map id Diagnostic.told) =
        (Warning.ofErrors source (Component.parse source).errors).map fun warning =>
          (path, warning.message, warning.offset) := by
    rw [List.map_map (g := fun diagnostic => (path, diagnostic))]
    exact Diagnostic.told_ofErrors path source
  unfold convertFile
  cases files.read file device with
  | error error => rfl
  | ok source =>
      cases settings.emitTsx with
      | true => exact together
      | false =>
          simp only [Bool.false_eq_true, if_false]
          split <;> exact together

theorem told_convertFiles (settings : RunSettings) (files : FileSystem) (order : List Path)
    (device : Path → Device) :
    ((convertFiles settings files order device).1.flatMap FileResult.shown).map
        (Prod.map id Diagnostic.told) =
      ((convertFiles settings files order device).1.map (·.report)).flatMap FileReport.told := by
  induction order generalizing files with
  | nil => rfl
  | cons file rest ih =>
      rw [convertFiles]
      simp only [List.flatMap_cons, List.map_append, List.map_cons, told_convertFile, ih]

/-- Whether a run shows the warnings of its summary as they are to be shown. -/
structure RunResult.ShowsWarnings (result : RunResult) (arguments : Arguments) : Prop where
  failed : ∀ error, result.outcome = .error error → result.diagnostics = []
  shown : ∀ summary, result.outcome = .ok summary →
    result.diagnostics.map (Prod.map id Diagnostic.told) =
      if arguments.outputOrDefault = .human then summary.files.flatMap FileReport.told else []

theorem told_showing (arguments : Arguments) (diagnostics : List (Text × Diagnostic)) :
    (arguments.showing diagnostics).map (Prod.map id Diagnostic.told) =
      if arguments.outputOrDefault = .human then diagnostics.map (Prod.map id Diagnostic.told)
      else [] := by
  rw [Arguments.showing]
  split <;> rfl

theorem runInput_showsWarnings (arguments : Arguments) (settings : RunSettings)
    (surroundings : Surroundings) :
    (runInput arguments settings surroundings).ShowsWarnings arguments := by
  unfold runInput
  cases surroundings.input.text? with
  | none => exact ⟨fun _ _ => rfl, nofun⟩
  | some source =>
      refine ⟨nofun, fun summary isSummary => ?_⟩
      cases isSummary
      rw [told_showing, List.flatMap_singleton]
      exact if_congr Iff.rfl (Diagnostic.told_ofErrors _ source) rfl

/--
**A run shows the warnings of its summary.**  A summary for people comes with one diagnostic for
each warning, for the same component and place and in the same words and order, also where the code
could not be written; a summary for programs comes with none, and neither does an error.
-/
theorem run_shows_warnings (arguments : Arguments) (surroundings : Surroundings)
    (device : Path → Device) :
    (run arguments surroundings device).ShowsWarnings arguments := by
  unfold run
  by_cases reads : arguments.readsStdin
  · simp only [if_pos reads]
    exact runInput_showsWarnings _ _ _
  simp only [if_neg reads]
  unfold runFiles
  cases Discovery.patterns? _ with
  | none => exact ⟨fun _ _ => rfl, nofun⟩
  | some ignored =>
      simp only
      cases Discovery.collect _ _ _ with
      | error path => exact ⟨fun _ _ => rfl, nofun⟩
      | ok found =>
          refine ⟨nofun, fun summary isSummary => ?_⟩
          cases isSummary
          rw [told_showing, told_convertFiles]

end ComponentTsx
