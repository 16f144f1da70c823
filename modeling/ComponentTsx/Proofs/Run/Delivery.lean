import ComponentTsx.Proofs.Run.Failure

/-!
# What a run delivers

If the outputs of the files of a run lie in different places, and none where a file
to convert lies, then each file finds its outputs after the run as its own conversion
left them: the code and the source map if it did not fail (`delivered_of_grows`), and
otherwise what was there before, or a first part of them.  Elsewhere there are new
directories at most (`run_delivers`).

This holds whatever the device refuses or breaks off, and in whatever places the steps
up of the paths make directories.
-/

namespace ComponentTsx

set_option autoImplicit false

namespace RunSettings

variable {settings : RunSettings} {file : Path} {device : Device}

/-- What is left of the outputs of a file, as its report says. -/
structure Delivered (settings : RunSettings) (base : FileSystem) (result : View) (file : Path)
    (report : FileReport) : Prop where
  /-- The code is where it goes, and so is the source map if it goes beside the code. -/
  done : report.error = none →
    ∃ source, base.read file = .ok source ∧
      result (settings.target file).location =
        some (.file (.text (settings.conversionOf file source).code)) ∧
      (settings.delivery.isExternal → ∃ map, (settings.conversionOf file source).map = some map ∧
        result (settings.mapTarget file).location = some (.file (.text map)))
  /-- Of what failed an output is as it was, or is broken off, or it is the code without a map. -/
  failed : report.error ≠ none → ∀ target ∈ settings.targets file,
    base.view.SameOrMade result target ∨
    ∃ source, base.read file = .ok source ∧
      (target = (settings.target file).location ∧
          (result.HoldsPart target (settings.conversionOf file source).code ∨
            settings.delivery.isExternal ∧
              result target = some (.file (.text (settings.conversionOf file source).code))) ∨
        target = (settings.mapTarget file).location ∧
          ∃ map, (settings.conversionOf file source).map = some map ∧ result.HoldsPart target map)

/-- What is written without an error is all there. -/
theorem view_outcomeOf_of_none {files : FileSystem} {source : Text}
    (succeeds : (settings.outcomeOf files file source device).error = none) :
    let written := (settings.outcomeOf files file source device).files.view
    written (settings.target file).location =
        some (.file (.text (settings.conversionOf file source).code)) ∧
      ∀ map, (settings.conversionOf file source).map = some map →
        written (settings.mapTarget file).location = some (.file (.text map)) := by
  unfold outcomeOf Conversion.writeTo at succeeds ⊢
  cases isMap : (settings.conversionOf file source).map with
  | none =>
      rw [isMap] at succeeds
      dsimp only at succeeds ⊢
      refine ⟨?_, nofun⟩
      rw [FileSystem.view_of_store (FileSystem.Outcome.store_of_andWrite succeeds).2,
        Function.update_self]
  | some map =>
      rw [isMap] at succeeds
      dsimp only at succeeds ⊢
      obtain ⟨writesCode, writesMap⟩ := FileSystem.Outcome.store_of_andWrite succeeds
      have storesCode := (FileSystem.Outcome.store_of_andWrite writesCode).2
      rw [FileSystem.view_of_store writesMap]
      refine ⟨?_, fun other same => ?_⟩
      · rw [Function.update_of_ne (location_mapTarget_ne settings file).symm,
          FileSystem.view_of_store storesCode, Function.update_self]
      · cases same
        rw [Function.update_self]

/-! ## One file among others -/

/-- **A file finds its outputs as it left them**, whatever was converted before it and after it. -/
theorem delivered_of_grows {base files final : FileSystem} {before after : Location → Prop}
    (isFound : IsFound base file) (writes : settings.emitTsx = false)
    (grows : FileSystem.Grows before base files)
    (growsOn : FileSystem.Grows after (convertFile settings files file device).files final)
    (notBefore : ∀ target ∈ settings.targets file, ¬ before target)
    (notAfter : ∀ target ∈ settings.targets file, ¬ after target)
    (noOutput : ¬ before file.location) :
    settings.Delivered base final.view file (convertFile settings files file device).report := by
  have atTarget := target_mem_targets settings file
  have earlier {target : Location} (isTarget : target ∈ settings.targets file) :=
    grows.sameOrMade (notBefore target isTarget)
  have later {target : Location} (isTarget : target ∈ settings.targets file) :=
    growsOn.sameOrMade (notAfter target isTarget)
  have reads {source : Text} (isText : files.read file device = .ok source) :
      base.read file = .ok source := by
    rw [← isFound.read_of_grows grows noOutput]
    exact FileSystem.read_of_device isText
  constructor
  · intro noError
    obtain ⟨source, isText, succeeds⟩ := (error_convertFile_eq_none_iff writes).mp noError
    obtain ⟨code, map⟩ := view_outcomeOf_of_none succeeds
    rw [← files_convertFile writes isText] at code map
    refine ⟨source, reads isText, (later atTarget).file code, fun external => ?_⟩
    obtain ⟨text, isMap⟩ : ∃ text, (settings.conversionOf file source).map = some text :=
      ⟨_, if_pos external⟩
    exact ⟨text, isMap, (later (mapTarget_mem_targets external file)).file (map text isMap)⟩
  · intro hasError target isTarget
    have isOutput : target = (settings.target file).location ∨
        target = (settings.mapTarget file).location := by
      rcases List.mem_cons.mp isTarget with same | isMap
      · exact .inl same
      · split at isMap
        · exact .inr (List.mem_singleton.mp isMap)
        · cases isMap
    have unchanged (left : files.view.SameOrMade
        (convertFile settings files file device).files.view target) :
        base.view.SameOrMade final.view target :=
      ((earlier isTarget).trans left).trans (later isTarget)
    cases (abandoned_convertFile writes hasError).remains with
    | nothing atCode atMap =>
        rcases isOutput with rfl | rfl
        · exact .inl (unchanged atCode)
        · exact .inl (unchanged atMap)
    | partOfCode isText _ code atMap =>
        rcases isOutput with rfl | rfl
        · exact .inr ⟨_, reads isText, .inl ⟨rfl, .inl (code.stays (later isTarget))⟩⟩
        · exact .inl (unchanged atMap)
    | code isText isMap code _ atMap =>
        rcases isOutput with rfl | rfl
        · exact .inr ⟨_, reads isText,
            .inl ⟨rfl, .inr ⟨isExternal_of_map isMap, (later isTarget).file code⟩⟩⟩
        · exact .inl (unchanged atMap)
    | partOfMap isText isMap code _ part =>
        rcases isOutput with rfl | rfl
        · exact .inr ⟨_, reads isText,
            .inl ⟨rfl, .inr ⟨isExternal_of_map isMap, (later isTarget).file code⟩⟩⟩
        · exact .inr ⟨_, reads isText, .inr ⟨rfl, _, isMap, part.stays (later isTarget)⟩⟩

/-! ## All files -/

/-- The files that are converted after others find their outputs as they left them. -/
theorem forall₂_delivered {base files : FileSystem} (writes : settings.emitTsx = false)
    (device : Path → Device) (done : List Path) {order : List Path}
    (areFound : ∀ file ∈ order, IsFound base file)
    (distinct : ((done ++ order).flatMap settings.targets).Nodup)
    (noOutput : ∀ file ∈ order, file.location ∉ (done ++ order).flatMap settings.targets)
    (grows : FileSystem.Grows (· ∈ done.flatMap settings.targets) base files) :
    List.Forall₂ (settings.Delivered base (convertFiles settings files order device).2.view) order
      ((convertFiles settings files order device).1.map (·.report)) := by
  induction order generalizing files done with
  | nil => exact .nil
  | cons file rest ih =>
      obtain ⟨fileFound, restFound⟩ := List.forall_mem_cons.mp areFound
      have whole : done ++ file :: rest = (done ++ [file]) ++ rest := by
        rw [List.append_assoc, List.singleton_append]
      rw [List.flatMap_append, List.flatMap_cons] at distinct
      obtain ⟨_, distinctFrom, apartBefore⟩ := List.nodup_append.mp distinct
      obtain ⟨_, _, apartAfter⟩ := List.nodup_append.mp distinctFrom
      have growsOn : FileSystem.Grows (· ∈ rest.flatMap settings.targets)
          (convertFile settings files file (device file)).files
          (convertFiles settings files (file :: rest) device).2 :=
        grows_convertFiles (fun other isRest target isTarget =>
          List.mem_flatMap.mpr ⟨other, isRest, isTarget⟩) device
      have growsHere : FileSystem.Grows (· ∈ (done ++ [file]).flatMap settings.targets) base
          (convertFile settings files file (device file)).files := by
        rw [List.flatMap_append, List.flatMap_singleton]
        exact (FileSystem.grows_of_imp (fun _ => List.mem_append_left _) grows).trans
          (grows_convertFile (fun _ => List.mem_append_right _) (device file))
      refine .cons (delivered_of_grows fileFound writes grows growsOn
        (fun target isTarget isDone => ?_) (fun target isTarget isRest => ?_) ?_) ?_
      · exact apartBefore target isDone target (List.mem_append_left _ isTarget) rfl
      · exact apartAfter target isTarget target isRest rfl
      · intro isDone
        refine noOutput file List.mem_cons_self ?_
        rw [List.flatMap_append]
        exact List.mem_append_left _ isDone
      · refine ih (done ++ [file]) restFound ?_ (fun other isRest => ?_) growsHere
        · rwa [← whole, List.flatMap_append, List.flatMap_cons]
        · rw [← whole]
          exact noOutput other (List.mem_cons_of_mem _ isRest)

end RunSettings

/-! ## Whole runs -/

theorem RunSummary.converted_add_failed (summary : RunSummary) :
    summary.converted + summary.failed = summary.files.length :=
  Nat.sub_add_cancel List.countP_le_length

/-- What a run leaves and reports. -/
structure Delivers (arguments : Arguments) (surroundings : Surroundings) (settings : RunSettings)
    (found : List Path) (device : Path → Device) : Prop where
  /-- There is a report for each file in the order of the paths, and those with an error count. -/
  summary : ∃ summary, (run arguments surroundings device).outcome = .ok summary ∧
    List.Forall₂ (settings.Delivered surroundings.files
      (run arguments surroundings device).files.view) found summary.files ∧
    summary.converted + summary.failed = found.length ∧
    summary.failed = summary.files.countP (·.error.isSome)
  /-- Elsewhere than at the outputs there are at most new directories. -/
  elsewhere : ∀ location, location ∉ found.flatMap settings.targets →
    surroundings.files.view.SameOrMade (run arguments surroundings device).files.view location

variable {arguments : Arguments} {surroundings : Surroundings} {settings : RunSettings}
  {found : List Path}

/-- **A run delivers what it reports, and changes nothing else.** -/
theorem run_delivers (sound : surroundings.files.isSound)
    (absolute : surroundings.currentDirectory.isAbsolute)
    (reaches : arguments.conversions? surroundings = some (settings, found))
    (writes : arguments.emitTsx = false) (apart : settings.KeepsApart found)
    (device : Path → Device) : Delivers arguments surroundings settings found device := by
  obtain ⟨outcome, files⟩ := run_of_conversions? reaches device
  have delivered := RunSettings.forall₂_delivered
    ((Arguments.emitTsx_of_conversions? reaches).trans writes) device []
    (isFound_of_conversions? sound absolute reaches) apart.distinct apart.notFound .refl
  have grows : FileSystem.Grows (· ∈ found.flatMap settings.targets) surroundings.files
      (run arguments surroundings device).files := by
    rw [files]
    exact grows_convertFiles (fun file isFile target isTarget =>
      List.mem_flatMap.mpr ⟨file, isFile, isTarget⟩) device
  rw [← files] at delivered
  refine ⟨⟨_, outcome, delivered, ?_, rfl⟩, fun location => grows.sameOrMade⟩
  rw [RunSummary.converted_add_failed]
  exact delivered.length_eq.symm

end ComponentTsx
