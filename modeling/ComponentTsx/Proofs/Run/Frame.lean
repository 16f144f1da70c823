import ComponentTsx.Proofs.Run.Conversions

/-!
# Runs that leave the file system alone

A run finds all of its files before it converts the first one, so a run that ends
in an error has changed nothing and printed nothing
(`leavesAlone_of_conversions?`).  A run that reads standard input, or prints the
code of its files, changes nothing whatever comes of it (`run_leaves_files`).

The device of the run may refuse what it will.
-/

namespace ComponentTsx

set_option autoImplicit false

variable {arguments : Arguments} {surroundings : Surroundings} {settings : RunSettings}

/-! ## Runs without conversions -/

/-- Whether a run left the files as they were, and printed nothing if it ended in an error. -/
structure RunResult.LeavesAlone (result : RunResult) (files : FileSystem) : Prop where
  files : result.files = files
  printed : ∀ error, result.outcome = .error error → result.printed = []

theorem runInput_leavesAlone (arguments : Arguments) (settings : RunSettings)
    (surroundings : Surroundings) :
    (runInput arguments settings surroundings).LeavesAlone surroundings.files := by
  unfold runInput
  cases surroundings.input.text? with
  | none => exact ⟨rfl, fun _ _ => rfl⟩
  | some source => exact ⟨rfl, nofun⟩

/-- **A run that converts none of the files that it could find leaves everything alone.** -/
theorem leavesAlone_of_conversions? (reaches : arguments.conversions? surroundings = none)
    (device : Path → Device) :
    (run arguments surroundings device).LeavesAlone surroundings.files := by
  unfold Arguments.conversions? at reaches
  unfold run runFiles
  by_cases reads : arguments.readsStdin
  · simp only [if_pos reads]
    exact runInput_leavesAlone _ _ _
  simp only [if_neg reads] at reaches ⊢
  cases isIgnored : Discovery.patterns? _ with
  | none => exact ⟨rfl, fun _ _ => rfl⟩
  | some ignored =>
      rw [isIgnored] at reaches
      simp only [Option.bind_some] at reaches ⊢
      cases collected : Discovery.collect _ _ _ with
      | error path => exact ⟨rfl, fun _ _ => rfl⟩
      | ok found =>
          rw [collected] at reaches
          cases reaches

/-! ## Runs that print code -/

/-- A file whose code is to be printed is converted without an effect. -/
theorem files_convertFile_of_emitTsx (emits : settings.emitTsx) (files : FileSystem)
    (file : Path) (device : Device) : (convertFile settings files file device).files = files := by
  unfold convertFile
  cases files.read file device with
  | error error => rfl
  | ok source => simp only [if_pos emits]

theorem files_convertFiles_of_emitTsx (emits : settings.emitTsx) (files : FileSystem)
    (order : List Path) (device : Path → Device) :
    (convertFiles settings files order device).2 = files := by
  induction order with
  | nil => rfl
  | cons file rest ih =>
      rw [convertFiles, files_convertFile_of_emitTsx emits]
      exact ih

theorem files_run_of_emitTsx (emits : arguments.emitTsx = true) (device : Path → Device) :
    (run arguments surroundings device).files = surroundings.files := by
  cases reaches : arguments.conversions? surroundings with
  | none => exact (leavesAlone_of_conversions? reaches device).files
  | some conversions =>
      rw [(run_of_conversions? reaches device).2]
      refine files_convertFiles_of_emitTsx ?_ surroundings.files _ device
      rw [Arguments.emitTsx_of_conversions? reaches, emits]

/--
**A run that fails has no effect, and neither has one that prints code.**  A run that ends in an
error leaves all files as they were and prints nothing; a run with `-` among its paths, or one that
is to print the code, leaves all files as they were, however it ends.
-/
theorem run_leaves_files (arguments : Arguments) (surroundings : Surroundings)
    (device : Path → Device) :
    (∀ error, (run arguments surroundings device).outcome = .error error →
      (run arguments surroundings device).files = surroundings.files ∧
        (run arguments surroundings device).printed = []) ∧
    (['-'] ∈ arguments.paths ∨ arguments.emitTsx = true →
      (run arguments surroundings device).files = surroundings.files) := by
  cases reaches : arguments.conversions? surroundings with
  | none =>
      have alone := leavesAlone_of_conversions? reaches device
      exact ⟨fun error fails => ⟨alone.files, alone.printed error fails⟩, fun _ => alone.files⟩
  | some conversions =>
      obtain ⟨settings, found⟩ := conversions
      obtain ⟨noStdin, _⟩ := Arguments.exists_of_conversions? reaches
      obtain ⟨outcome, _⟩ := run_of_conversions? reaches device
      refine ⟨fun error fails => (nomatch outcome.symm.trans fails), fun quiet => ?_⟩
      rcases quiet with reads | emits
      · have readsStdin : arguments.readsStdin = true := by
          simpa [Arguments.readsStdin] using reads
        cases noStdin.symm.trans readsStdin
      · exact files_run_of_emitTsx emits device

end ComponentTsx
