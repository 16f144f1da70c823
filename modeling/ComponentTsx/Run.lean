import ComponentTsx.Arguments
import ComponentTsx.Device
import ComponentTsx.Discovery

/-!
# Runs

A run converts the components that its arguments ask for.  The code of each goes
to a file beside the component, or to the same place under an output directory,
or is printed.  A component that cannot be read or written is reported, and the
run goes on.  The errors of a component source are shown with the source, unless
the summary is for programs.

The device that the files lie on can answer otherwise for one component than for
another, as it changes in the course of a run.  It is asked about the components only:
the configuration is read and the components are found as the file system has them.

A component from standard input is converted alone, and its code is printed.
-/

namespace ComponentTsx

set_option autoImplicit false

/-- What a run starts from. -/
structure Surroundings where
  files : FileSystem
  /-- The absolute path of the current directory. -/
  currentDirectory : Path
  /-- What standard input holds. -/
  input : Contents := .text []

/--
Why a run does not happen.  A conversion is no reason: it never fails (`Conversion.ofSource`).
-/
inductive RunError where
  /-- A path leads to nothing. -/
  | missingPath (path : Path)
  /-- A text is no glob pattern. -/
  | invalidGlob
  /-- Standard input holds no text. -/
  | unreadableInput
deriving DecidableEq, Repr

/-- The error in words. -/
def RunError.message : RunError → Text
  | missingPath path => "no such file or directory: ".toList ++ path
  | invalidGlob => "invalid glob pattern".toList
  | unreadableInput => "failed to read standard input".toList

/-- What comes of a run. -/
structure RunResult where
  outcome : Except RunError RunSummary
  /-- What the run printed, apart from its summary. -/
  printed : Text := []
  /-- What the run showed of the errors of components, each with the path of its component. -/
  diagnostics : List (Text × Diagnostic) := []
  files : FileSystem

/-! ## Settings -/

/-- What all conversions of a run have in common. -/
structure RunSettings where
  workspace : Path
  delivery : MapDelivery
  outDir : Option Path
  emitTsx : Bool

/-- The name of the configuration file of a workspace. -/
def configName : Text := "astro-tsx.json".toList

/-- The absolute path of the workspace. -/
def Arguments.workspaceIn (arguments : Arguments) (currentDirectory : Path) : Path :=
  let workspace : Path := arguments.workspace.getD ['.']
  if workspace.isAbsolute then workspace else Path.resolve currentDirectory workspace

/-- The configuration of a workspace.  A file that is missing or unreadable configures nothing. -/
def Config.load (files : FileSystem) (workspace : Path) (given : Option Path) : Config :=
  match files.read (workspace.join (given.getD configName)) with
  | .ok content => (Config.parse? content).getD {}
  | .error _ => {}

/-- The settings of a run: what the arguments give goes before what the configuration says. -/
def RunSettings.of (arguments : Arguments) (config : Config) (workspace : Path) : RunSettings where
  workspace := workspace
  delivery := (arguments.sourcemap.or config.sourcemap).getD .omitted
  outDir := (arguments.outDir.or config.outDir).map workspace.join
  emitTsx := arguments.emitTsx

/-! ## Single files -/

namespace RunSettings

/-- Where the code of a file goes. -/
def target (settings : RunSettings) (file : Path) : Path :=
  let relative := Path.relativeTo settings.workspace file
  let place :=
    match settings.outDir with
    | none => file
    | some directory =>
        if relative.isAbsolute then directory.join (file.fileName?.getD "component.astro".toList)
        else directory.join relative
  place ++ ".tsx".toList

/-- Where the source map of a file goes. -/
def mapTarget (settings : RunSettings) (file : Path) : Path :=
  settings.target file ++ ".map".toList

end RunSettings

/-- Writes the code of a conversion, and its source map if there is one. -/
def Conversion.writeTo (conversion : Conversion) (files : FileSystem) (target mapTarget : Path)
    (device : Device := .reliable) : FileSystem.Outcome :=
  let written := (files.makeParents target device).andWrite target conversion.code device
  match conversion.map with
  | some map => written.andWrite mapTarget map device
  | none => written

/-- What comes of a file. -/
structure FileResult where
  report : FileReport
  /-- The code, if it is to be printed. -/
  printed : Option Text := none
  /-- The errors of the source, as they can be shown with it. -/
  diagnostics : List Diagnostic := []
  files : FileSystem

/-- Converts a file. -/
def convertFile (settings : RunSettings) (files : FileSystem) (file : Path)
    (device : Device := .reliable) : FileResult :=
  let path := Path.relativeTo settings.workspace file
  match files.read file device with
  | .error error =>
      { report := { path, error := some ("failed to read file: ".toList ++ error.message.toList) }
        files }
  | .ok source =>
      let conversion := Conversion.ofSource source (some file) settings.delivery
      let report : FileReport :=
        { path
          props := some conversion.props.kindName.toList
          warnings := Warning.ofErrors source conversion.errors }
      let diagnostics := conversion.errors.map (Diagnostic.ofError source)
      if settings.emitTsx then { report, printed := some conversion.code, diagnostics, files }
      else
        let target := settings.target file
        let written := conversion.writeTo files target (settings.mapTarget file) device
        match written.error with
        | none =>
            { report := { report with output := some (Path.relativeTo settings.workspace target) }
              diagnostics
              files := written.files }
        | some error =>
            let message :=
              "failed to write ".toList ++ target ++ ": ".toList ++ error.message.toList
            { report := { report with error := some message }
              diagnostics
              files := written.files }

/-- What a run prints of a file whose code is to be printed. -/
def FileResult.text (result : FileResult) : Text :=
  match result.printed with
  | some code =>
      "=== TSX for ".toList ++ result.report.path ++ " ===\n".toList ++ code ++ ['\n']
  | none => []

/-- The diagnostics of a file, with its path. -/
def FileResult.shown (result : FileResult) : List (Text × Diagnostic) :=
  result.diagnostics.map fun diagnostic => (result.report.path, diagnostic)

/-- Diagnostics are for people: a summary for programs has all of them as warnings. -/
def Arguments.showing (arguments : Arguments) (diagnostics : List (Text × Diagnostic)) :
    List (Text × Diagnostic) :=
  if arguments.outputOrDefault = .human then diagnostics else []

/-- Converts files one after another, each on the device as it is meanwhile. -/
def convertFiles (settings : RunSettings) (files : FileSystem) (order : List Path)
    (device : Path → Device := fun _ => .reliable) : List FileResult × FileSystem :=
  match order with
  | [] => ([], files)
  | file :: rest =>
      let result := convertFile settings files file (device file)
      let (results, files) := convertFiles settings result.files rest device
      (result :: results, files)

/-! ## Whole runs -/

/-- Converts the component in standard input. -/
def runInput (arguments : Arguments) (settings : RunSettings) (surroundings : Surroundings) :
    RunResult :=
  match surroundings.input.text? with
  | none => { outcome := .error .unreadableInput, files := surroundings.files }
  | some source =>
      let filename := arguments.stdinFilename.getD ComponentName.stdinFilename
      let conversion := Conversion.ofSource source (some filename) settings.delivery
      let report : FileReport :=
        { path := filename
          props := some conversion.props.kindName.toList
          warnings := Warning.ofErrors source conversion.errors }
      { outcome := .ok ⟨[report], arguments.failOnWarnings⟩
        printed := conversion.code ++ ['\n']
        diagnostics := arguments.showing <|
          conversion.errors.map fun error => (filename, .ofError source error)
        files := surroundings.files }

/-- Converts the files that the arguments ask for. -/
def runFiles (arguments : Arguments) (config : Config) (settings : RunSettings)
    (surroundings : Surroundings) (device : Path → Device := fun _ => .reliable) : RunResult :=
  let files := surroundings.files
  match Discovery.patterns? (arguments.ignore ++ config.exclude) with
  | none => { outcome := .error .invalidGlob, files }
  | some ignored =>
      let criteria : Discovery.Criteria :=
        ⟨settings.workspace, config.fileExtensions, Discovery.matchesAny ignored⟩
      match Discovery.collect files criteria arguments.pathsOrDefault with
      | .error path => { outcome := .error (.missingPath path), files }
      | .ok found =>
          let (results, files) := convertFiles settings files found device
          { outcome := .ok ⟨results.map (·.report), arguments.failOnWarnings⟩
            printed := results.flatMap FileResult.text
            diagnostics := arguments.showing (results.flatMap FileResult.shown)
            files }

/-- The run that the arguments describe. -/
def run (arguments : Arguments) (surroundings : Surroundings)
    (device : Path → Device := fun _ => .reliable) : RunResult :=
  let workspace := arguments.workspaceIn surroundings.currentDirectory
  let config := Config.load surroundings.files workspace arguments.config
  let settings := RunSettings.of arguments config workspace
  if arguments.readsStdin then runInput arguments settings surroundings
  else runFiles arguments config settings surroundings device

end ComponentTsx
