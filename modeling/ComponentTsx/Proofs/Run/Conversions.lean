import ComponentTsx.Proofs.Run.Targets

/-!
# Runs that convert files

A run finds its files before it converts the first one, and what it finds does not
hang on what the device lets it write (`Arguments.conversions?`).  What comes of the
run is then what comes of converting these files (`run_of_conversions?`).

The files are converted one after another, so each of them is converted after the
ones before it (`convertFiles_append`).
-/

namespace ComponentTsx

set_option autoImplicit false

/-- The settings of a run that converts files, and the files in their order. -/
def Arguments.conversions? (arguments : Arguments) (surroundings : Surroundings) :
    Option (RunSettings × List Path) :=
  let workspace := arguments.workspaceIn surroundings.currentDirectory
  let config := Config.load surroundings.files workspace arguments.config
  let settings := RunSettings.of arguments config workspace
  if arguments.readsStdin then none
  else
    (Discovery.patterns? (arguments.ignore ++ config.exclude)).bind fun ignored =>
      let criteria : Discovery.Criteria :=
        ⟨settings.workspace, config.fileExtensions, Discovery.matchesAny ignored⟩
      match Discovery.collect surroundings.files criteria arguments.pathsOrDefault with
      | .error _ => none
      | .ok found => some (settings, found)

variable {arguments : Arguments} {surroundings : Surroundings} {settings : RunSettings}
  {found : List Path}

/-- How the settings and the files of a run come about. -/
theorem Arguments.exists_of_conversions?
    (reaches : arguments.conversions? surroundings = some (settings, found)) :
    let workspace := arguments.workspaceIn surroundings.currentDirectory
    let config := Config.load surroundings.files workspace arguments.config
    arguments.readsStdin = false ∧ settings = RunSettings.of arguments config workspace ∧
      ∃ ignored, Discovery.patterns? (arguments.ignore ++ config.exclude) = some ignored ∧
        Discovery.collect surroundings.files
          ⟨settings.workspace, config.fileExtensions, Discovery.matchesAny ignored⟩
          arguments.pathsOrDefault = .ok found := by
  intro workspace config
  unfold conversions? at reaches
  simp only at reaches
  split at reaches
  · cases reaches
  · rename_i noStdin
    obtain ⟨ignored, isIgnored, reaches⟩ := Option.bind_eq_some_iff.mp reaches
    split at reaches
    · cases reaches
    · rename_i collected
      cases reaches
      exact ⟨by simpa using noStdin, rfl, ignored, isIgnored, collected⟩

/-- What is collected is converted, with the settings of the arguments and the configuration. -/
theorem Arguments.conversions?_of_collect {workspace : Path} {config : Config}
    {ignored : List Glob}
    (isWorkspace : arguments.workspaceIn surroundings.currentDirectory = workspace)
    (isConfig : Config.load surroundings.files workspace arguments.config = config)
    (noStdin : arguments.readsStdin = false)
    (isIgnored : Discovery.patterns? (arguments.ignore ++ config.exclude) = some ignored)
    (collected : Discovery.collect surroundings.files
      ⟨workspace, config.fileExtensions, Discovery.matchesAny ignored⟩
      arguments.pathsOrDefault = .ok found) :
    arguments.conversions? surroundings = some (.of arguments config workspace, found) := by
  simp only [conversions?, isWorkspace, isConfig, noStdin, isIgnored, RunSettings.of]
  rw [Option.bind_some, collected]
  rfl

/-- Files that are named in the order of their paths are just converted. -/
theorem Arguments.conversions?_of_areFiles (arguments : Arguments) (surroundings : Surroundings)
    (workspace : Path) (config : Config)
    (isWorkspace : arguments.workspaceIn surroundings.currentDirectory = workspace)
    (isConfig : Config.load surroundings.files workspace arguments.config = config)
    (noStdin : arguments.readsStdin = false)
    (patterns : (Discovery.patterns? (arguments.ignore ++ config.exclude)).isSome)
    (areFiles : arguments.pathsOrDefault.all fun path =>
      surroundings.files.isFile (Path.resolve workspace path))
    (ordered : (arguments.pathsOrDefault.map (Path.resolve workspace)).Pairwise fun first second =>
      Path.componentsLe first.components second.components ∧
        first.components ≠ second.components) :
    arguments.conversions? surroundings =
      some (.of arguments config workspace,
        arguments.pathsOrDefault.map (Path.resolve workspace)) := by
  obtain ⟨ignored, isIgnored⟩ := Option.isSome_iff_exists.mp patterns
  have single : (arguments.pathsOrDefault.map fun path => [Path.resolve workspace path]).flatten =
      arguments.pathsOrDefault.map (Path.resolve workspace) := by
    rw [← List.flatMap_def, List.map_eq_flatMap]
  refine conversions?_of_collect isWorkspace isConfig noStdin isIgnored ?_
  rw [← single]
  refine Discovery.collect_eq_flatten (List.forall₂_map_right_iff.mpr
    (List.forall₂_same.mpr fun path member => ?_)) (single ▸ ordered)
  exact if_pos (List.all_eq_true.mp areFiles path member)

/-- Without configuration the settings are those of the arguments. -/
theorem Arguments.conversions?_of_isFile (arguments : Arguments) (surroundings : Surroundings)
    (workspace : Path)
    (isWorkspace : arguments.workspaceIn surroundings.currentDirectory = workspace)
    (unconfigured : Config.load surroundings.files workspace arguments.config = {})
    (noStdin : arguments.readsStdin = false)
    (patterns : (Discovery.patterns? (arguments.ignore ++ [])).isSome)
    (areFiles : arguments.pathsOrDefault.all fun path =>
      surroundings.files.isFile (Path.resolve workspace path))
    (ordered : (arguments.pathsOrDefault.map (Path.resolve workspace)).Pairwise fun first second =>
      Path.componentsLe first.components second.components ∧
        first.components ≠ second.components) :
    arguments.conversions? surroundings =
      some (.of arguments {} workspace,
        arguments.pathsOrDefault.map (Path.resolve workspace)) :=
  arguments.conversions?_of_areFiles surroundings workspace {} isWorkspace unconfigured noStdin
    patterns areFiles ordered

theorem Arguments.workspace_of_conversions?
    (reaches : arguments.conversions? surroundings = some (settings, found)) :
    settings.workspace = arguments.workspaceIn surroundings.currentDirectory := by
  obtain ⟨_, rfl, _⟩ := exists_of_conversions? reaches
  rfl

theorem Arguments.emitTsx_of_conversions?
    (reaches : arguments.conversions? surroundings = some (settings, found)) :
    settings.emitTsx = arguments.emitTsx := by
  obtain ⟨_, rfl, _⟩ := exists_of_conversions? reaches
  rfl

/-- A run converts the files that it found, one after another. -/
theorem run_eq_of_conversions?
    (reaches : arguments.conversions? surroundings = some (settings, found))
    (device : Path → Device) :
    run arguments surroundings device =
      let converted := convertFiles settings surroundings.files found device
      { outcome := .ok ⟨converted.1.map (·.report), arguments.failOnWarnings⟩
        printed := converted.1.flatMap FileResult.text
        diagnostics := arguments.showing (converted.1.flatMap FileResult.shown)
        files := converted.2 } := by
  obtain ⟨noStdin, rfl, ignored, isIgnored, collected⟩ := Arguments.exists_of_conversions? reaches
  simp only [run, noStdin, runFiles, isIgnored, collected]
  rfl

theorem run_of_conversions?
    (reaches : arguments.conversions? surroundings = some (settings, found))
    (device : Path → Device) :
    let converted := convertFiles settings surroundings.files found device
    (run arguments surroundings device).outcome =
        .ok ⟨converted.1.map (·.report), arguments.failOnWarnings⟩ ∧
      (run arguments surroundings device).files = converted.2 := by
  rw [run_eq_of_conversions? reaches]
  exact ⟨rfl, rfl⟩

theorem isAbsolute_workspaceIn (arguments : Arguments) {currentDirectory : Path}
    (absolute : currentDirectory.isAbsolute) :
    (arguments.workspaceIn currentDirectory).isAbsolute := by
  unfold Arguments.workspaceIn
  simp only
  split
  · assumption
  · exact Discovery.isAbsolute_resolve absolute _

theorem isFound_of_conversions? (sound : surroundings.files.isSound)
    (absolute : surroundings.currentDirectory.isAbsolute)
    (reaches : arguments.conversions? surroundings = some (settings, found)) :
    ∀ file ∈ found, IsFound surroundings.files file := by
  obtain ⟨_, rfl, ignored, _, collected⟩ := Arguments.exists_of_conversions? reaches
  exact (Discovery.isFound_of_collect sound (isAbsolute_workspaceIn arguments absolute)
    collected).1

/-! ## One file after another -/

theorem length_convertFiles (settings : RunSettings) (files : FileSystem) (order : List Path)
    (device : Path → Device) :
    (convertFiles settings files order device).1.length = order.length := by
  induction order generalizing files with
  | nil => rfl
  | cons file rest ih => exact congrArg (· + 1) (ih _)

theorem convertFiles_append (settings : RunSettings) (files : FileSystem)
    (first second : List Path) (device : Path → Device) :
    convertFiles settings files (first ++ second) device =
      let before := convertFiles settings files first device
      let after := convertFiles settings before.2 second device
      (before.1 ++ after.1, after.2) := by
  induction first generalizing files with
  | nil => rfl
  | cons file rest ih =>
      rw [List.cons_append, convertFiles, ih]
      rfl

end ComponentTsx
