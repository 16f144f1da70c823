import ComponentTsx.Proofs.FileSystem.Repetition
import ComponentTsx.Proofs.Json.Reading
import ComponentTsx.Proofs.Run.Growth

/-!
# Runs that are repeated

A run can be repeated on the files that it leaves.  By default a search finds no
output, so the same files are collected, whatever the device refused (`collectsAgain`).
If it has restrictions on reading and writing at most, each file is read as before, and
what was written is written again (`convertFiles_isAgain`).  So a second run changes
nothing and reports the same (`run_isAgain`).

That is said of runs that write to none of the files that are named, nor to their
configuration.  The first run can make directories that a path steps up from.  Then
the second one may find a configuration that the first one did not
(`run_again_differs`), or say another reason for a failure: with a file at `f`, the
directory `f/g` of `new/../f/g` cannot be made, first because `f` exists, and then,
as `new` does too, because `f` is no directory.  Where the first run has made room on
a full disk, the second one can write more, and where a directory is not told to be
one, the second one fails in what the first one made.
-/

namespace ComponentTsx

set_option autoImplicit false

/-! ## Reports without the words of errors -/

/-- A report that tells of an error only that there is one. -/
def FileReport.withoutWords (report : FileReport) : FileReport :=
  { report with error := report.error.map fun _ => [] }

namespace RunSummary

/-- A summary that tells of errors only that there are some. -/
def withoutWords (summary : RunSummary) : RunSummary :=
  { summary with files := summary.files.map FileReport.withoutWords }

theorem failed_withoutWords (summary : RunSummary) :
    summary.withoutWords.failed = summary.failed := by
  rw [failed, withoutWords, List.countP_map]
  refine List.countP_congr fun report _ => ?_
  rw [Function.comp_apply, FileReport.failed, FileReport.withoutWords, Option.isSome_map,
    FileReport.failed]

theorem converted_withoutWords (summary : RunSummary) :
    summary.withoutWords.converted = summary.converted := by
  rw [converted, failed_withoutWords, withoutWords, List.length_map, converted]

theorem warnings_withoutWords (summary : RunSummary) :
    summary.withoutWords.warnings = summary.warnings := by
  rw [warnings, withoutWords, List.flatMap_map, warnings]
  rfl

end RunSummary

/-! ## Conversions -/

/-- **What was written is written again, and what failed fails again.** -/
theorem Conversion.isAgain_writeTo {conversion : Conversion} {files later : FileSystem}
    {target mapTarget : Path} {outer : List Text} {last mapLast : Text}
    (restrictions : Restrictions) (whole : target.segments = outer ++ [last])
    (named : Path.isName last) (mapWhole : mapTarget.segments = outer ++ [mapLast])
    (keeps : (conversion.writeTo files target mapTarget
      (.ofRestrictions restrictions)).files.view.Keeps later.view) :
    FileSystem.Outcome.IsAgain (files.view.StepsUp [] target.segments) files later
      (conversion.writeTo files target mapTarget (.ofRestrictions restrictions))
      (conversion.writeTo later target mapTarget (.ofRestrictions restrictions)) := by
  have code := (files.makeParents target).keeps_andWrite target conversion.code
    (.ofRestrictions restrictions)
  have leads (succeeds : (files.makeParents target).error = none) :=
    FileSystem.makeParents_leads whole named succeeds
  have withCode (keeps : ((files.makeParents target).andWrite target conversion.code
      (.ofRestrictions restrictions)).files.view.Keeps later.view) :=
    (FileSystem.isAgain_makeParents whole named (code.trans keeps)).andWrite
      (fun succeeds contents => by
        obtain ⟨bottom, leads, directory⟩ := leads succeeds
        exact FileSystem.store_ne_notFound whole leads directory) keeps
  unfold writeTo at keeps ⊢
  rw [FileSystem.makeParents_ofRestrictions] at keeps ⊢
  rw [FileSystem.makeParents_ofRestrictions]
  cases isMap : conversion.map with
  | none =>
      rw [isMap] at keeps
      exact withCode keeps
  | some map =>
      rw [isMap] at keeps
      have lastly := ((files.makeParents target).andWrite target conversion.code
        (.ofRestrictions restrictions)).keeps_andWrite mapTarget map
        (.ofRestrictions restrictions)
      refine (withCode (lastly.trans keeps)).andWrite (fun succeeds contents => ?_) keeps
      obtain ⟨bottom, leads, directory⟩ := leads (FileSystem.Outcome.store_of_andWrite succeeds).1
      exact FileSystem.store_ne_notFound mapWhole
        (View.pathway_of_directories code.directory leads) (code.directory _ directory)

/-! ## Files -/

namespace RunSettings

variable {settings : RunSettings} {restrictions : Restrictions} {files later : FileSystem}
  {file : Path} {device : Device}

/-- Reports of one text agree on all but the words of an error if both fail or neither does. -/
theorem withoutWords_report_congr (writes : settings.emitTsx = false)
    (sameText : later.read file device = files.read file device)
    (fails : ∀ source, files.read file device = .ok source →
      ((settings.outcomeOf later file source device).error = none ↔
        (settings.outcomeOf files file source device).error = none)) :
    (convertFile settings later file device).report.withoutWords =
      (convertFile settings files file device).report.withoutWords := by
  cases isText : files.read file device with
  | error error => simp only [convertFile, sameText, isText]
  | ok source =>
      have fails := fails source isText
      simp only [outcomeOf, conversionOf] at fails
      simp only [convertFile, sameText, isText, writes, Bool.false_eq_true, if_false]
      split
      · rename_i succeeds
        rw [fails.mp succeeds]
      · rename_i error failed
        obtain ⟨other, failedBefore⟩ := Option.ne_none_iff_exists'.mp
          (mt fails.mpr (by rw [failed]; exact Option.some_ne_none error))
        rw [failedBefore]
        rfl

/-- Whether what comes of files is what came of them before. -/
structure IsAgain (lasting : Prop) (files later : FileSystem)
    (first second : List FileReport × FileSystem) : Prop where
  repeats : files.view.Repeats first.2.view later.view second.2.view
  keeps : later.view.Keeps second.2.view
  reports : second.1.map FileReport.withoutWords = first.1.map FileReport.withoutWords
  /-- Where steps up leave directories that were there, the words are the same too. -/
  words : lasting → second.1 = first.1

theorem IsAgain.trans {lasting lastingToo all : Prop} {middle middleAgain : FileSystem}
    {first second more moreAgain : List FileReport} {last lastAgain : FileSystem}
    (start : IsAgain lasting files later (first, middle) (second, middleAgain))
    (onward : IsAgain lastingToo middle middleAgain (more, last) (moreAgain, lastAgain))
    (lasts : all → lasting ∧ lastingToo) :
    IsAgain all files later (first ++ more, last) (second ++ moreAgain, lastAgain) := by
  refine ⟨start.repeats.trans onward.repeats, start.keeps.trans onward.keeps, ?_, fun holds => ?_⟩
  · rw [List.map_append, List.map_append, start.reports, onward.reports]
  · exact congrArg₂ (· ++ ·) (start.words (lasts holds).1) (onward.words (lasts holds).2)

/-- **A file is converted again as it was.** -/
theorem convertFile_isAgain (restrictions : Restrictions) (writes : settings.emitTsx = false)
    (sameText : later.read file = files.read file)
    (keeps : (convertFile settings files file (.ofRestrictions restrictions)).files.view.Keeps
      later.view) :
    let first := convertFile settings files file (.ofRestrictions restrictions)
    let second := convertFile settings later file (.ofRestrictions restrictions)
    IsAgain (settings.StepsUp files.view file) files later ([first.report], first.files)
      ([second.report], second.files) := by
  intro first second
  have sameRead : later.read file (.ofRestrictions restrictions) =
      files.read file (.ofRestrictions restrictions) := by
    rw [FileSystem.read_ofRestrictions, FileSystem.read_ofRestrictions, sameText]
  cases isText : files.read file (.ofRestrictions restrictions) with
  | error error =>
      have same : second.report = first.report := by
        simp only [first, second, convertFile, sameRead, isText]
      have unread (others : FileSystem)
          (fails : others.read file (.ofRestrictions restrictions) = .error error) :
          (convertFile settings others file (.ofRestrictions restrictions)).files = others := by
        rw [convertFile, fails]
      refine ⟨fun location => .inl ⟨?_, .inl ?_⟩, ?_, ?_, fun _ => ?_⟩
      · dsimp only [second]
        rw [unread later (sameRead.trans isText)]
      · dsimp only [first]
        rw [unread files isText]
      · dsimp only [second]
        rw [unread later (sameRead.trans isText)]
        exact .refl _
      · rw [same]
      · rw [same]
  | ok source =>
      obtain ⟨outer, name, outputs⟩ := exists_outputs settings file
      have becomes := files_convertFile writes isText
      have becomesAgain := files_convertFile writes (sameRead.trans isText)
      rw [becomes] at keeps
      have again := Conversion.isAgain_writeTo restrictions outputs.target
        (isName_append_tsxEnding name) outputs.mapTarget keeps
      dsimp only [first, second]
      rw [becomes, becomesAgain]
      refine ⟨again.repeats, again.keeps, ?_, fun steps => ?_⟩
      · refine congrArg (· :: []) (withoutWords_report_congr writes sameRead fun other same => ?_)
        cases isText.symm.trans same
        exact again.fails
      · refine congrArg (· :: []) (report_convertFile_congr writes sameRead.symm ?_).symm
        intro other same
        cases isText.symm.trans same
        have isRead := View.read_of_readUnder (files.readUnder_eq restrictions file ▸ isText)
        exact (again.error (steps source isRead)).symm

/-- Steps up that leave directories leave them later. -/
theorem StepsUp.of_grows {places : Location → Prop} {base : FileSystem}
    (steps : settings.StepsUp base.view file) (grows : FileSystem.Grows places base files)
    (sameText : files.read file = base.read file) : settings.StepsUp files.view file := by
  intro source isText
  rw [← files.read_eq, sameText, base.read_eq] at isText
  exact grows.keeps.stepsUp (steps source isText)

/-- **Files are converted again as they were, one after another.** -/
theorem convertFiles_isAgain {places : Location → Prop} {base : FileSystem} {order : List Path}
    (restrictions : Restrictions) (writes : settings.emitTsx = false)
    (areFound : ∀ file ∈ order, IsFound base file)
    (elsewhere : ∀ file ∈ order, ¬ places file.location)
    (among : ∀ file ∈ order, ∀ target ∈ settings.targets file, places target)
    (grows : FileSystem.Grows places base files) (growsLater : FileSystem.Grows places base later)
    (keeps : (convertFiles settings files order
      fun _ => .ofRestrictions restrictions).2.view.Keeps later.view) :
    let first := convertFiles settings files order fun _ => .ofRestrictions restrictions
    let second := convertFiles settings later order fun _ => .ofRestrictions restrictions
    IsAgain (∀ file ∈ order, settings.StepsUp base.view file) files later
      (first.1.map (·.report), first.2) (second.1.map (·.report), second.2) := by
  induction order generalizing files later with
  | nil => exact ⟨fun _ => .inl ⟨rfl, .inl rfl⟩, .refl _, rfl, fun _ => rfl⟩
  | cons file rest ih =>
      obtain ⟨found, foundLater⟩ := List.forall_mem_cons.mp areFound
      obtain ⟨here, elsewhereLater⟩ := List.forall_mem_cons.mp elsewhere
      obtain ⟨outputs, outputsLater⟩ := List.forall_mem_cons.mp among
      have read := found.read_of_grows grows here
      have readLater := found.read_of_grows growsLater here
      have onward : FileSystem.Grows places
          (convertFile settings files file (.ofRestrictions restrictions)).files
          (convertFiles settings files (file :: rest) fun _ => .ofRestrictions restrictions).2 :=
        grows_convertFiles outputsLater _
      have again := convertFile_isAgain restrictions writes (readLater.trans read.symm)
        (onward.keeps.trans keeps)
      refine again.trans (ih foundLater elsewhereLater outputsLater
        (grows.trans (grows_convertFile outputs _))
        (growsLater.trans (grows_convertFile outputs _))
        (keeps.trans again.keeps)) fun steps => ?_
      obtain ⟨stepsHere, stepsLater⟩ := List.forall_mem_cons.mp steps
      exact ⟨stepsHere.of_grows grows read, stepsLater⟩

end RunSettings

/-! ## Whole runs -/

variable {arguments : Arguments} {surroundings : Surroundings} {settings : RunSettings}
  {found : List Path}

/-- What a run starts from that follows a run. -/
def Surroundings.after (surroundings : Surroundings) (result : RunResult) : Surroundings :=
  { surroundings with files := result.files }

/-- Whether a run writes to none of the files that are named, and not to its configuration. -/
structure Arguments.LeavesInputs (arguments : Arguments) (surroundings : Surroundings)
    (settings : RunSettings) (found : List Path) : Prop where
  /-- The endings of components are those that they have by default. -/
  extensions : (Config.load surroundings.files settings.workspace arguments.config).fileExtensions =
    [RunSettings.componentEnding]
  named : ∀ path ∈ arguments.pathsOrDefault,
    surroundings.files.isFile (Path.resolve settings.workspace path) →
      (Path.resolve settings.workspace path).location ∉ found.flatMap settings.targets
  config : ∀ given, arguments.config = some given →
    (settings.workspace.join given).location ∉ found.flatMap settings.targets

/-- Whether the configuration of a run is there before the run if it is there afterwards. -/
structure Arguments.Repeatable (arguments : Arguments) (surroundings : Surroundings)
    (settings : RunSettings) (found : List Path) : Prop
    extends arguments.LeavesInputs surroundings settings found where
  /-- If files are written, the path of the configuration steps up from directories only. -/
  configSteps : arguments.emitTsx = false → surroundings.files.view.StepsUp []
    (settings.workspace.join (arguments.config.getD configName)).segments

/-- What a run leaves that converts files. -/
theorem Surroundings.after_run
    (reaches : arguments.conversions? surroundings = some (settings, found))
    (device : Path → Device) :
    surroundings.after (run arguments surroundings device) =
      { surroundings with files := (convertFiles settings surroundings.files found device).2 } := by
  rw [run_eq_of_conversions? reaches]
  rfl

/-- Nothing is printed where files are written. -/
theorem flatMap_text_convertFiles (writes : settings.emitTsx = false) (files : FileSystem)
    (order : List Path) (device : Path → Device) :
    (convertFiles settings files order device).1.flatMap FileResult.text = [] := by
  induction order generalizing files with
  | nil => rfl
  | cons file rest ih =>
      have silent : (convertFile settings files file (device file)).text = [] := by
        unfold convertFile
        cases files.read file (device file) with
        | error error => rfl
        | ok source =>
            simp only [writes, Bool.false_eq_true, if_false]
            split <;> rfl
      rw [convertFiles, List.flatMap_cons, silent]
      exact ih _

/-- **A run finds the same files again, with the same settings.** -/
theorem Arguments.conversions?_of_grows (absolute : surroundings.currentDirectory.isAbsolute)
    (reaches : arguments.conversions? surroundings = some (settings, found))
    (repeatable : arguments.Repeatable surroundings settings found)
    (writes : arguments.emitTsx = false) {later : FileSystem}
    (grows : FileSystem.Grows (· ∈ found.flatMap settings.targets) surroundings.files later) :
    arguments.conversions? { surroundings with files := later } = some (settings, found) := by
  obtain ⟨noStdin, isSettings, ignored, isIgnored, collected⟩ := exists_of_conversions? reaches
  have isWorkspace := workspace_of_conversions? reaches
  have elsewhere : (settings.workspace.join (arguments.config.getD configName)).location ∉
      found.flatMap settings.targets := by
    cases given : arguments.config with
    | some path => exact repeatable.config path given
    | none =>
        intro isTarget
        obtain ⟨file, _, isTarget⟩ := List.mem_flatMap.mp isTarget
        exact RunSettings.configName_notMem_targets settings file settings.workspace isTarget
  have sameConfig := Config.load_of_grows grows elsewhere (repeatable.configSteps writes)
  have isAbsolute : settings.workspace.isAbsolute := by
    rw [isWorkspace]
    exact isAbsolute_workspaceIn arguments absolute
  rw [← isWorkspace] at isSettings isIgnored collected
  rw [isSettings]
  refine conversions?_of_collect isWorkspace.symm sameConfig noStdin isIgnored ?_
  apply Discovery.collect_of_grows grows ?_ isAbsolute collected
  exact RunSettings.misses_targets repeatable.extensions found

/-- Whether a run converts what another one did, on the files that it left. -/
structure CollectsAgain (arguments : Arguments) (surroundings again : Surroundings) : Prop where
  /-- The same files are collected, and the settings are the same. -/
  conversions : arguments.conversions? again = arguments.conversions? surroundings
  /-- No file that is collected is an output. -/
  notGenerated : ∀ settings found, arguments.conversions? again = some (settings, found) →
    ∀ file ∈ found, file.location ∉ found.flatMap settings.targets

/-- Whether a run on a device does what another one did, on the files that it left. -/
structure RunsAgain (arguments : Arguments) (device : Path → Device)
    (surroundings again : Surroundings) : Prop where
  /-- Nothing is changed. -/
  view : (run arguments again device).files.view = again.files.view
  printed : (run arguments again device).printed = (run arguments surroundings device).printed
  outcome : (run arguments again device).outcome.map RunSummary.withoutWords =
    (run arguments surroundings device).outcome.map RunSummary.withoutWords
  counts : ∀ first second, (run arguments surroundings device).outcome = .ok first →
    (run arguments again device).outcome = .ok second →
      second.converted = first.converted ∧ second.warnings = first.warnings ∧
        second.failed = first.failed
  /-- The words of errors are the same too if steps up leave directories that were there before. -/
  words : (∀ settings found, arguments.conversions? surroundings = some (settings, found) →
      settings.outDir.isSome → ∀ file ∈ found, settings.StepsUp surroundings.files.view file) →
    (run arguments again device).outcome = (run arguments surroundings device).outcome

theorem RunSummary.counts_of_withoutWords {first second : RunSummary}
    (same : second.withoutWords = first.withoutWords) :
    second.converted = first.converted ∧ second.warnings = first.warnings ∧
      second.failed = first.failed := by
  rw [← converted_withoutWords, ← warnings_withoutWords, ← failed_withoutWords, same]
  exact ⟨converted_withoutWords first, warnings_withoutWords first, failed_withoutWords first⟩

theorem notMem_targets_of_conversions? (sound : surroundings.files.isSound)
    (absolute : surroundings.currentDirectory.isAbsolute)
    (reaches : arguments.conversions? surroundings = some (settings, found))
    (leaves : arguments.LeavesInputs surroundings settings found) :
    ∀ file ∈ found, file.location ∉ found.flatMap settings.targets := by
  obtain ⟨_, _, ignored, _, collected⟩ := Arguments.exists_of_conversions? reaches
  have isWorkspace := Arguments.workspace_of_conversions? reaches
  rw [← isWorkspace] at collected
  refine RunSettings.notMem_targets_of_collect sound leaves.extensions ?_ collected leaves.named
  rw [isWorkspace]
  exact isAbsolute_workspaceIn arguments absolute

/-- A run changes the places of outputs only, and nothing if it is to print code. -/
theorem grows_run (reaches : arguments.conversions? surroundings = some (settings, found))
    (device : Path → Device) :
    FileSystem.Grows (· ∈ found.flatMap settings.targets) surroundings.files
      (run arguments surroundings device).files := by
  rw [(run_of_conversions? reaches device).2]
  exact grows_convertFiles (fun file isFile target isTarget =>
    List.mem_flatMap.mpr ⟨file, isFile, isTarget⟩) device

theorem after_eq_of_files_eq {result : RunResult} (same : result.files = surroundings.files) :
    surroundings.after result = surroundings := by
  rw [Surroundings.after, same]

/-- **A run converts the same files again**, whatever its device refused. -/
theorem collectsAgain (sound : surroundings.files.isSound)
    (absolute : surroundings.currentDirectory.isAbsolute)
    (repeatable : ∀ settings found, arguments.conversions? surroundings = some (settings, found) →
      arguments.Repeatable surroundings settings found) (device : Path → Device) :
    CollectsAgain arguments surroundings
      (surroundings.after (run arguments surroundings device)) := by
  have same : arguments.conversions? (surroundings.after (run arguments surroundings device)) =
      arguments.conversions? surroundings := by
    cases reaches : arguments.conversions? surroundings with
    | none => rw [after_eq_of_files_eq (leavesAlone_of_conversions? reaches device).files, reaches]
    | some conversions =>
        obtain ⟨settings, found⟩ := conversions
        cases writes : arguments.emitTsx with
        | true =>
            rw [after_eq_of_files_eq (files_run_of_emitTsx writes device), reaches]
        | false =>
            exact arguments.conversions?_of_grows absolute reaches
              (repeatable settings found reaches) writes (grows_run reaches device)
  refine ⟨same, fun settings found reachesAgain => ?_⟩
  have reaches := same.symm.trans reachesAgain
  exact notMem_targets_of_conversions? sound absolute reaches
    (repeatable settings found reaches).toLeavesInputs

/-- A run that changes nothing is repeated as it was. -/
theorem runsAgain_of_files_eq {device : Path → Device}
    (same : (run arguments surroundings device).files = surroundings.files) :
    RunsAgain arguments device surroundings
      (surroundings.after (run arguments surroundings device)) := by
  rw [after_eq_of_files_eq same]
  refine ⟨congrArg _ same, rfl, rfl, fun first second isFirst isSecond => ?_, fun _ => rfl⟩
  cases isFirst.symm.trans isSecond
  exact ⟨rfl, rfl, rfl⟩

/-- A run that writes files is repeated, as each of its files is. -/
theorem runsAgain_of_conversions? (restrictions : Restrictions)
    (reaches : arguments.conversions? surroundings = some (settings, found))
    (reachesAgain : arguments.conversions? (surroundings.after
      (run arguments surroundings fun _ => .ofRestrictions restrictions)) =
        some (settings, found))
    (areFound : ∀ file ∈ found, IsFound surroundings.files file)
    (apart : ∀ file ∈ found, file.location ∉ found.flatMap settings.targets)
    (writes : arguments.emitTsx = false) :
    let device : Path → Device := fun _ => .ofRestrictions restrictions
    RunsAgain arguments device surroundings
      (surroundings.after (run arguments surroundings device)) := by
  intro device
  have noPrinting := (Arguments.emitTsx_of_conversions? reaches).trans writes
  have isRun := run_eq_of_conversions? reaches device
  have isAfter := Surroundings.after_run reaches device
  have among : ∀ file ∈ found, ∀ target ∈ settings.targets file,
      target ∈ found.flatMap settings.targets := by
    intro file isFile target isTarget
    exact List.mem_flatMap.mpr ⟨file, isFile, isTarget⟩
  have grows : FileSystem.Grows (· ∈ found.flatMap settings.targets) surroundings.files
      (convertFiles settings surroundings.files found device).2 := grows_convertFiles among _
  rw [isAfter] at reachesAgain ⊢
  have isRunAgain := run_eq_of_conversions? reachesAgain device
  have again := RunSettings.convertFiles_isAgain restrictions noPrinting areFound apart among
    .refl grows (.refl _)
  let summed (reports : List FileReport) : Except RunError RunSummary :=
    .ok ⟨reports, arguments.failOnWarnings⟩
  have outcome : (run arguments { surroundings with
      files := (convertFiles settings surroundings.files found device).2 } device).outcome.map
        RunSummary.withoutWords =
          (run arguments surroundings device).outcome.map RunSummary.withoutWords := by
    rw [isRunAgain, isRun]
    exact congrArg summed again.reports
  refine ⟨?_, ?_, outcome, fun first second isFirst isSecond => ?_, fun steps => ?_⟩
  · rw [isRunAgain]
    exact again.repeats.eq
  · rw [isRunAgain, isRun]
    exact (flatMap_text_convertFiles noPrinting _ found device).trans
      (flatMap_text_convertFiles noPrinting _ found device).symm
  · rw [isFirst, isSecond] at outcome
    exact RunSummary.counts_of_withoutWords (Except.ok.inj outcome)
  · rw [isRunAgain, isRun]
    refine congrArg summed (again.words fun file isFile => ?_)
    exact RunSettings.stepsUp_of_outDir fun given => steps settings found reaches given file isFile

/--
**A run is repeated.**  It finds the same files again, whatever its device refused; under the same
restrictions it changes nothing and reports the same.
-/
theorem run_isAgain (sound : surroundings.files.isSound)
    (absolute : surroundings.currentDirectory.isAbsolute)
    (repeatable : ∀ settings found, arguments.conversions? surroundings = some (settings, found) →
      arguments.Repeatable surroundings settings found) :
    (∀ device, CollectsAgain arguments surroundings
      (surroundings.after (run arguments surroundings device))) ∧
    ∀ restrictions : Restrictions,
      let device : Path → Device := fun _ => .ofRestrictions restrictions
      RunsAgain arguments device surroundings
        (surroundings.after (run arguments surroundings device)) := by
  have collects := collectsAgain sound absolute repeatable
  refine ⟨collects, ?_⟩
  intro restrictions device
  cases reaches : arguments.conversions? surroundings with
  | none => exact runsAgain_of_files_eq (leavesAlone_of_conversions? reaches device).files
  | some conversions =>
      obtain ⟨settings, found⟩ := conversions
      cases writes : arguments.emitTsx with
      | true => exact runsAgain_of_files_eq (files_run_of_emitTsx writes device)
      | false =>
          exact runsAgain_of_conversions? restrictions reaches
            ((collects device).conversions.trans reaches)
            (isFound_of_conversions? sound absolute reaches)
            (notMem_targets_of_conversions? sound absolute reaches
              (repeatable settings found reaches).toLeavesInputs) writes

/-- A searched directory with the output directory in it, and in this a file in the way. -/
theorem run_isAgain_site :
    let card : Node := .file (.text "<p/>".toList)
    let files : FileSystem :=
      ⟨[("site".toList, .directory [("Card.astro".toList, card),
        ("pages".toList, .directory [("Tag.astro".toList, card)]),
        ("out".toList, .directory [("pages".toList, card)])])]⟩
    let surroundings : Surroundings := { files, currentDirectory := "/site".toList }
    let arguments : Arguments := { outDir := some "out".toList, sourcemap := some .both }
    let settings : RunSettings := ⟨"/site".toList, .both, some "/site/out".toList, false⟩
    let found : List Path := ["/site/Card.astro".toList, "/site/pages/Tag.astro".toList]
    let restrictions : Restrictions := { room? := fun _ => some (200, ⟨"File too large", 27⟩) }
    let device : Path → Device := fun _ => .ofRestrictions restrictions
    (files.isSound ∧ surroundings.currentDirectory.isAbsolute ∧
      arguments.conversions? surroundings = some (settings, found) ∧
      arguments.Repeatable surroundings settings found) ∧
    CollectsAgain arguments surroundings
      (surroundings.after (run arguments surroundings fun _ => .ofCapacity 100)) ∧
    RunsAgain arguments device surroundings
      (surroundings.after (run arguments surroundings device)) := by
  intro card files surroundings arguments settings found restrictions device
  have sound : files.isSound := by decide +kernel
  have reaches : arguments.conversions? surroundings = some (settings, found) := by
    have unconfigured : Config.load files "/site".toList none = {} := by decide +kernel
    refine Arguments.conversions?_of_collect rfl unconfigured rfl
      (Option.some_get (by decide +kernel)).symm ?_
    exact Discovery.collect_eq_flatten (.cons (by decide +kernel : _ = some found) .nil)
      (by decide +kernel)
  have repeatable : arguments.Repeatable surroundings settings found :=
    ⟨⟨by decide +kernel, by decide +kernel, nofun⟩,
      fun _ => View.stepsUp_of_notMem (by decide +kernel)⟩
  obtain ⟨collects, again⟩ := run_isAgain sound rfl fun others order reachesOthers => by
    cases reaches.symm.trans reachesOthers
    exact repeatable
  exact ⟨⟨sound, rfl, reaches, repeatable⟩, collects _, again restrictions⟩

/--
Where a path steps up from a directory that the first run makes, the second one can give another
reason for a failure, or find a configuration and write a source map.  On a full disk, on which the
first run has put a short text in the place of a long one, the second one can write what the first
one broke off.  And where a directory is not told to be one, the second one fails in the directory
that the first one made.
-/
theorem run_again_differs :
    let card : Node := .file (.text "<p/>".toList)
    let blocked : FileSystem :=
      ⟨[("site".toList, .directory [("f".toList, card),
        ("g".toList, .directory [("Card.astro".toList, card)])])]⟩
    let settingText : Text := "\x7b\"sourcemap\": \"external\"\x7d".toList
    let configured : FileSystem :=
      ⟨[("site".toList, .directory [("Card.astro".toList, card),
        ("c.json".toList, .file (.text settingText))])]⟩
    let crowded : FileSystem :=
      ⟨[("site".toList, .directory [("A.astro".toList, card), ("B.astro".toList, card),
        ("B.astro.tsx".toList, .file (.text (List.replicate 150 ' ')))])]⟩
    let start (files : FileSystem) : Surroundings := { files, currentDirectory := "/site".toList }
    let nested : Arguments :=
      { paths := ["g/Card.astro".toList], outDir := some "new/../f".toList }
    let mapped : Arguments :=
      { paths := ["Card.astro".toList], outDir := some "new".toList
        config := some "new/../c.json".toList }
    let mirrored : Arguments := { paths := ["Card.astro".toList], outDir := some "new".toList }
    let paired : Arguments := { paths := ["A.astro".toList, "B.astro".toList] }
    let toFile : RunSettings := ⟨"/site".toList, .omitted, some "/site/new/../f".toList, false⟩
    let toNew : RunSettings := ⟨"/site".toList, .omitted, some "/site/new".toList, false⟩
    let besides : RunSettings := ⟨"/site".toList, .omitted, none, false⟩
    let inner : List Path := ["/site/g/Card.astro".toList]
    let outer : List Path := ["/site/Card.astro".toList]
    let both : List Path := ["/site/A.astro".toList, "/site/B.astro".toList]
    let full : Path → Device := fun _ => .ofCapacity 250
    let denied (operation : Operation) : Option Fault :=
      if operation = .inspect then some ⟨"Permission denied", 13⟩ else none
    let blind : Path → Device := fun _ => ⟨fun operation _ _ => denied operation, fun _ _ => none⟩
    let errors (result : RunResult) := result.outcome.map (·.files.map (·.error))
    let blockedAgain := (start blocked).after (run nested (start blocked))
    let configuredAgain := (start configured).after (run mapped (start configured))
    let crowdedAgain := (start crowded).after (run paired (start crowded) full)
    let mirroredAgain := (start configured).after (run mirrored (start configured) blind)
    (nested.conversions? (start blocked) = some (toFile, inner) ∧
      nested.Repeatable (start blocked) toFile inner ∧
      errors (run nested (start blocked)) = .ok [some ("failed to write ".toList ++
        "/site/new/../f/g/Card.astro.tsx: File exists (os error 17)".toList)] ∧
      errors (run nested blockedAgain) = .ok [some ("failed to write ".toList ++
        "/site/new/../f/g/Card.astro.tsx: Not a directory (os error 20)".toList)]) ∧
    (paired.conversions? (start crowded) = some (besides, both) ∧
      paired.Repeatable (start crowded) besides both ∧
      errors (run paired (start crowded) full) = .ok [some ("failed to write ".toList ++
        "/site/A.astro.tsx: No space left on device (os error 28)".toList), none] ∧
      errors (run paired crowdedAgain full) = .ok [none, none]) ∧
    (mirrored.conversions? (start configured) = some (toNew, outer) ∧
      mirrored.Repeatable (start configured) toNew outer ∧
      errors (run mirrored (start configured) blind) = .ok [none] ∧
      errors (run mirrored mirroredAgain blind) = .ok [some ("failed to write ".toList ++
        "/site/new/Card.astro.tsx: File exists (os error 17)".toList)]) ∧
    mapped.conversions? (start configured) = some (toNew, outer) ∧
      mapped.LeavesInputs (start configured) toNew outer ∧
      mapped.conversions? configuredAgain =
        some ({ toNew with delivery := .external }, outer) ∧
      (run mapped configuredAgain).files.view ≠ configuredAgain.files.view := by
  intro card blocked settingText configured crowded start nested mapped mirrored paired toFile toNew
    besides inner outer both full denied blind errors blockedAgain configuredAgain crowdedAgain
    mirroredAgain
  have converts (arguments : Arguments) (files : FileSystem) :=
    arguments.conversions?_of_isFile (start files) "/site".toList
  have reachesNested : nested.conversions? (start blocked) = some (toFile, inner) :=
    converts nested blocked rfl (by decide +kernel) rfl (by decide +kernel) (by decide +kernel)
      (by decide +kernel)
  have isBlockedAgain : blockedAgain = start (convertFiles toFile blocked inner).2 :=
    Surroundings.after_run reachesNested _
  have reachesNestedAgain : nested.conversions? blockedAgain = some (toFile, inner) := by
    rw [isBlockedAgain]
    exact converts nested (convertFiles toFile blocked inner).2 rfl (by decide +kernel) rfl
      (by decide +kernel) (by decide +kernel) (by decide +kernel)
  have reachesPaired : paired.conversions? (start crowded) = some (besides, both) :=
    converts paired crowded rfl (by decide +kernel) rfl (by decide +kernel) (by decide +kernel)
      (by decide +kernel)
  have isCrowdedAgain : crowdedAgain = start (convertFiles besides crowded both full).2 :=
    Surroundings.after_run reachesPaired full
  have reachesPairedAgain : paired.conversions? crowdedAgain = some (besides, both) := by
    rw [isCrowdedAgain]
    exact converts paired (convertFiles besides crowded both full).2 rfl (by decide +kernel) rfl
      (by decide +kernel) (by decide +kernel) (by decide +kernel)
  have reachesMirrored : mirrored.conversions? (start configured) = some (toNew, outer) :=
    converts mirrored configured rfl (by decide +kernel) rfl (by decide +kernel)
      (by decide +kernel) (by decide +kernel)
  have isMirroredAgain : mirroredAgain = start (convertFiles toNew configured outer blind).2 :=
    Surroundings.after_run reachesMirrored blind
  have reachesMirroredAgain : mirrored.conversions? mirroredAgain = some (toNew, outer) := by
    rw [isMirroredAgain]
    exact converts mirrored (convertFiles toNew configured outer blind).2 rfl (by decide +kernel)
      rfl (by decide +kernel) (by decide +kernel) (by decide +kernel)
  have reachesMapped : mapped.conversions? (start configured) = some (toNew, outer) :=
    converts mapped configured rfl (by decide +kernel) rfl (by decide +kernel) (by decide +kernel)
      (by decide +kernel)
  have isConfiguredAgain : configuredAgain = start (convertFiles toNew configured outer).2 :=
    Surroundings.after_run reachesMapped _
  have external : Config.parse? settingText = some { sourcemap := some .external } := by
    let value : Json.Value :=
      .object [(some "sourcemap".toList, .scalar (.string (some "external".toList)))]
    have isText : Json.tokens? (Config.removeComments settingText) = some value.tokens := by
      decide +kernel
    rw [Config.parse?, Json.parse?_of_tokens?_eq isText]
    decide +kernel
  have configures (later : FileSystem)
      (reads : later.read "/site/new/../c.json".toList = .ok settingText)
      (isFile : later.isFile "/site/Card.astro".toList) :
      mapped.conversions? (start later) = some ({ toNew with delivery := .external }, outer) := by
    have isConfig : Config.load later "/site".toList mapped.config =
        { sourcemap := some .external } := by
      have isPath : Path.join "/site".toList (mapped.config.getD configName) =
          "/site/new/../c.json".toList := by decide +kernel
      rw [Config.load, isPath, reads]
      exact congrArg (Option.getD · {}) external
    refine mapped.conversions?_of_areFiles (start later) "/site".toList _ rfl isConfig rfl
      (by decide +kernel) ?_ (by decide +kernel)
    have isPath : Path.resolve "/site".toList "Card.astro".toList = "/site/Card.astro".toList := by
      decide +kernel
    change (later.isFile (Path.resolve "/site".toList "Card.astro".toList) && true) = true
    rw [isPath, isFile]
    rfl
  have reachesMappedAgain : mapped.conversions? configuredAgain =
      some ({ toNew with delivery := .external }, outer) := by
    rw [isConfiguredAgain]
    exact configures _ (by decide +kernel) (by decide +kernel)
  refine ⟨⟨reachesNested, ?_, ?_, ?_⟩, ⟨reachesPaired, ?_, ?_, ?_⟩,
    ⟨reachesMirrored, ?_, ?_, ?_⟩, reachesMapped, ?_, reachesMappedAgain, ?_⟩
  · exact ⟨⟨by decide +kernel, by decide +kernel, nofun⟩,
      fun _ => View.stepsUp_of_notMem (by decide +kernel)⟩
  · dsimp only [errors]
    rw [run_eq_of_conversions? reachesNested]
    decide +kernel
  · dsimp only [errors]
    rw [run_eq_of_conversions? reachesNestedAgain, isBlockedAgain]
    decide +kernel
  · exact ⟨⟨by decide +kernel, by decide +kernel, nofun⟩,
      fun _ => View.stepsUp_of_notMem (by decide +kernel)⟩
  · dsimp only [errors]
    rw [run_eq_of_conversions? reachesPaired]
    decide +kernel
  · dsimp only [errors]
    rw [run_eq_of_conversions? reachesPairedAgain, isCrowdedAgain]
    decide +kernel
  · exact ⟨⟨by decide +kernel, by decide +kernel, nofun⟩,
      fun _ => View.stepsUp_of_notMem (by decide +kernel)⟩
  · dsimp only [errors]
    rw [run_eq_of_conversions? reachesMirrored]
    decide +kernel
  · dsimp only [errors]
    rw [run_eq_of_conversions? reachesMirroredAgain, isMirroredAgain]
    decide +kernel
  · refine ⟨by decide +kernel, by decide +kernel, fun given isGiven => ?_⟩
    cases isGiven
    decide +kernel
  · rw [run_eq_of_conversions? reachesMappedAgain, isConfiguredAgain]
    dsimp only [start]
    intro same
    have missing : (convertFiles toNew configured outer).2.view
        ["site".toList, "new".toList, "Card.astro.tsx.map".toList] = none := by decide +kernel
    have written : ((convertFiles { toNew with delivery := .external }
        (convertFiles toNew configured outer).2 outer).2.view
          ["site".toList, "new".toList, "Card.astro.tsx.map".toList]).isSome := by decide +kernel
    rw [same, missing] at written
    cases written

end ComponentTsx
