import ComponentTsx.Proofs.Run.Growth

/-!
# Files that fail

A file fails if it cannot be read, if there is no making its directories, or if its
code or its source map is refused or broken off.  What was done before the failure
stays, and the source map comes last, so one of four things is left of its outputs:
neither of them; a first part of the code; all of the code; all of the code and a
first part of the source map (`RunSettings.Remains`).  Elsewhere there are new
directories at most, and no output is reported (`RunSettings.Abandoned`).  All of
this holds whatever the device refuses or breaks off.

New directories lie above the target.  With a step up in its path, which leaves a
directory that is not there yet, one of them can lie at the target itself: the code
for `out/Card.astro.tsx/../Card.astro.tsx` is refused by the directory that was made
for it (`run_failed_leaves_outputs`).
-/

namespace ComponentTsx

set_option autoImplicit false

/-! ## Conversions that cannot be written -/

namespace FileSystem

/-- How a text is not written after other operations: nothing is changed, or it is broken off. -/
theorem Outcome.andWrite_of_error {outcome : Outcome} {path : Path} {text : Text}
    {device : Device} {error : FileError}
    (fails : (outcome.andWrite path text device).error = some error) :
    ((outcome.andWrite path text device).files = outcome.files ∧
      (outcome.error = none → outcome.files.write path text device =
        ⟨outcome.files, some error⟩)) ∨
    outcome.error = none ∧ ∃ contents fault, contents.IsPart text ∧
      device.BreaksOff outcome.files path text fault ∧
      outcome.files.store path contents = .ok (outcome.andWrite path text device).files := by
  rcases outcome.andWrite_cases path text device with ⟨other, failed, same⟩ | ⟨succeeds, same⟩
  · rw [same]
    exact .inl ⟨rfl, fun succeeds => nomatch failed.symm.trans succeeds⟩
  · rw [same] at fails ⊢
    rcases outcome.files.write_cases path text device with
      ⟨other, refused⟩ | ⟨changed, _, done⟩ |
      ⟨contents, changed, fault, isPart, breaks, stores, broken⟩
    · rw [refused] at fails ⊢
      cases fails
      exact .inl ⟨rfl, fun _ => rfl⟩
    · rw [done] at fails
      cases fails
    · rw [broken]
      exact .inr ⟨succeeds, contents, fault, isPart, breaks, stores⟩

end FileSystem

/-- How a conversion is left that cannot be written, and what the files are then. -/
inductive Conversion.LeftOff (conversion : Conversion) (files : FileSystem)
    (target mapTarget : Path) (device : Device) : FileSystem → Prop where
  | beforeCode :
      LeftOff conversion files target mapTarget device (files.makeParents target device).files
  | inCode {left : FileSystem} {contents : Contents} {fault : Fault}
      (isPart : contents.IsPart conversion.code)
      (breaks : device.BreaksOff (files.makeParents target device).files target conversion.code
        fault)
      (stores : (files.makeParents target device).files.store target contents = .ok left) :
      LeftOff conversion files target mapTarget device left
  | beforeMap {left : FileSystem} {map : Text} {error : FileError}
      (isMap : conversion.map = some map)
      (stores : (files.makeParents target device).files.store target (.text conversion.code) =
        .ok left)
      (refused : left.write mapTarget map device = ⟨left, some error⟩) :
      LeftOff conversion files target mapTarget device left
  | inMap {written left : FileSystem} {map : Text} {contents : Contents} {fault : Fault}
      (isMap : conversion.map = some map)
      (stores : (files.makeParents target device).files.store target (.text conversion.code) =
        .ok written)
      (isPart : contents.IsPart map)
      (breaks : device.BreaksOff written mapTarget map fault)
      (storesPart : written.store mapTarget contents = .ok left) :
      LeftOff conversion files target mapTarget device left

theorem Conversion.leftOff_of_error {conversion : Conversion} {files : FileSystem}
    {target mapTarget : Path} {device : Device} {error : FileError}
    (fails : (conversion.writeTo files target mapTarget device).error = some error) :
    conversion.LeftOff files target mapTarget device
      (conversion.writeTo files target mapTarget device).files := by
  have inCode {error : FileError} (fails : ((files.makeParents target device).andWrite target
      conversion.code device).error = some error) :
      conversion.LeftOff files target mapTarget device
        ((files.makeParents target device).andWrite target conversion.code device).files := by
    rcases FileSystem.Outcome.andWrite_of_error fails with
      ⟨same, _⟩ | ⟨_, contents, fault, isPart, breaks, stores⟩
    · rw [same]
      exact .beforeCode
    · exact .inCode isPart breaks stores
  unfold writeTo at fails ⊢
  cases isMap : conversion.map with
  | none =>
      rw [isMap] at fails
      exact inCode fails
  | some map =>
      rw [isMap] at fails
      dsimp only at fails ⊢
      rcases FileSystem.Outcome.andWrite_of_error fails with
        ⟨same, refused⟩ | ⟨succeeds, contents, fault, isPart, breaks, stores⟩
      · rw [same]
        cases failed : ((files.makeParents target device).andWrite target conversion.code
            device).error with
        | some other => exact inCode failed
        | none =>
            exact .beforeMap isMap (FileSystem.Outcome.store_of_andWrite failed).2 (refused failed)
      · exact .inMap isMap (FileSystem.Outcome.store_of_andWrite succeeds).2 isPart breaks stores

/-! ## Files that are abandoned -/

namespace RunSettings

variable {settings : RunSettings} {files left : FileSystem} {file : Path} {device : Device}

/-- What is left of the outputs of a file that fails, where some places are left alone. -/
inductive Remains (settings : RunSettings) (files : FileSystem) (file : Path) (device : Device)
    (left : FileSystem) (isLeft : Location → Prop) : Prop where
  | nothing (target : isLeft (settings.target file).location)
      (mapTarget : isLeft (settings.mapTarget file).location)
  /-- The device breaks the code off. -/
  | partOfCode {source : Text} {before : FileSystem} {fault : Fault}
      (isText : files.read file device = .ok source)
      (breaks : device.BreaksOff before (settings.target file)
        (settings.conversionOf file source).code fault)
      (code : left.view.HoldsPart (settings.target file).location
        (settings.conversionOf file source).code)
      (mapTarget : isLeft (settings.mapTarget file).location)
  /-- The source map is refused. -/
  | code {source map : Text} {error : FileError} (isText : files.read file device = .ok source)
      (isMap : (settings.conversionOf file source).map = some map)
      (code : left.view (settings.target file).location =
        some (.file (.text (settings.conversionOf file source).code)))
      (refused : left.write (settings.mapTarget file) map device = ⟨left, some error⟩)
      (mapTarget : isLeft (settings.mapTarget file).location)
  /-- The device breaks the source map off. -/
  | partOfMap {source map : Text} {before : FileSystem} {fault : Fault}
      (isText : files.read file device = .ok source)
      (isMap : (settings.conversionOf file source).map = some map)
      (code : left.view (settings.target file).location =
        some (.file (.text (settings.conversionOf file source).code)))
      (breaks : device.BreaksOff before (settings.mapTarget file) map fault)
      (part : left.view.HoldsPart (settings.mapTarget file).location map)

/-- What a file that fails leaves behind. -/
structure Abandoned (settings : RunSettings) (files : FileSystem) (file : Path) (device : Device)
    (result : FileResult) : Prop where
  output : result.report.output = none
  unread : ∀ error, files.read file device = .error error → result.files = files
  /-- Nothing is written elsewhere than to the outputs. -/
  elsewhere : ∀ location, location ≠ (settings.target file).location →
    location ≠ (settings.mapTarget file).location →
      files.view.SameOrMade result.files.view location
  remains : settings.Remains files file device result.files
    (files.view.SameOrMade result.files.view)
  /-- Nor is a directory made where an output goes, if all steps up leave one. -/
  unmade : (settings.outDir.isSome → settings.StepsUp files.view file) →
    settings.Remains files file device result.files fun location =>
      result.files.view location = files.view location

theorem location_mapTarget_ne (settings : RunSettings) (file : Path) :
    (settings.mapTarget file).location ≠ (settings.target file).location := by
  obtain ⟨outer, name, outputs⟩ := exists_outputs settings file
  rw [outputs.location_target, location_of_isName outputs.mapTarget Outputs.isName_mapTarget]
  intro same
  exact Outputs.names_ne (List.cons.inj (List.append_cancel_left same)).1.symm

/-- What is left of a conversion is left of its file, wherever making directories leaves places. -/
theorem remains_of_leftOff {source : Text} (isLeft : View → Location → Prop)
    (isText : files.read file device = .ok source)
    (leftOff : (settings.conversionOf file source).LeftOff files (settings.target file)
      (settings.mapTarget file) device left)
    (target : isLeft (files.makeParents (settings.target file) device).files.view
      (settings.target file).location)
    (mapTarget : isLeft (files.makeParents (settings.target file) device).files.view
      (settings.mapTarget file).location)
    (congr : ∀ {view other : View} {location : Location}, view location = other location →
      isLeft view location → isLeft other location) :
    settings.Remains files file device left (isLeft left.view) := by
  have notTarget := location_mapTarget_ne settings file
  -- What is stored at the target changes nothing where the source map goes.
  have keeps {written : FileSystem} {contents : Contents}
      (stores : (files.makeParents (settings.target file) device).files.store
        (settings.target file) contents = .ok written) :
      isLeft written.view (settings.mapTarget file).location := by
    refine congr ?_ mapTarget
    rw [FileSystem.view_of_store stores, Function.update_of_ne notTarget]
  cases leftOff with
  | beforeCode => exact .nothing target mapTarget
  | inCode isPart breaks stores =>
      refine .partOfCode isText breaks ⟨_, ?_, isPart⟩ (keeps stores)
      rw [FileSystem.view_of_store stores, Function.update_self]
  | beforeMap isMap stores refused =>
      refine .code isText isMap ?_ refused (keeps stores)
      rw [FileSystem.view_of_store stores, Function.update_self]
  | inMap isMap stores isPart breaks storesPart =>
      refine .partOfMap isText isMap ?_ breaks ⟨_, ?_, isPart⟩
      · rw [FileSystem.view_of_store storesPart, Function.update_of_ne notTarget.symm,
          FileSystem.view_of_store stores, Function.update_self]
      · rw [FileSystem.view_of_store storesPart, Function.update_self]

/-- The directories for a target lie above its place, so that the outputs are as they were. -/
theorem view_makeParents_target (steps : settings.StepsUp files.view file) {source : Text}
    (isText : files.view.read file = .ok source) (device : Device) :
    let made := (files.makeParents (settings.target file) device).files
    made.view (settings.target file).location = files.view (settings.target file).location ∧
      made.view (settings.mapTarget file).location =
        files.view (settings.mapTarget file).location := by
  obtain ⟨outer, name, outputs⟩ := exists_outputs settings file
  have kept (last : Text) := FileSystem.view_makeParents outputs.target
    (isName_append_tsxEnding name) (steps source isText) last device
  rw [outputs.location_target, location_of_isName outputs.mapTarget Outputs.isName_mapTarget]
  exact ⟨kept _, kept _⟩

theorem output_convertFile_of_error
    (fails : (convertFile settings files file device).report.error ≠ none) :
    (convertFile settings files file device).report.output = none := by
  unfold convertFile at fails ⊢
  cases isText : files.read file device with
  | error error => rfl
  | ok source =>
      rw [isText] at fails
      dsimp only at fails ⊢
      split
      · rfl
      · rename_i writes
        rw [if_neg writes] at fails
        split
        · rename_i succeeds
          rw [succeeds] at fails
          exact absurd rfl fails
        · rfl

/-- **A file that fails leaves new directories behind, and a first part of its outputs at most.** -/
theorem abandoned_convertFile (writes : settings.emitTsx = false)
    (fails : (convertFile settings files file device).report.error ≠ none) :
    settings.Abandoned files file device (convertFile settings files file device) := by
  have noOutput := output_convertFile_of_error fails
  have grows : FileSystem.Grows (· ∈ settings.targets file) files
      (convertFile settings files file device).files := grows_convertFile (fun _ => id) device
  have elsewhere : ∀ location, location ≠ (settings.target file).location →
      location ≠ (settings.mapTarget file).location →
        files.view.SameOrMade (convertFile settings files file device).files.view location := by
    intro location notTarget notMapTarget
    refine grows.sameOrMade fun isTarget => ?_
    rcases List.mem_cons.mp isTarget with same | isMap
    · exact notTarget same
    · split at isMap
      · exact notMapTarget (List.mem_singleton.mp isMap)
      · cases isMap
  cases isText : files.read file device with
  | error error =>
      have same : (convertFile settings files file device).files = files := by
        rw [convertFile, isText]
      refine ⟨noOutput, fun _ _ => same, elsewhere, .nothing (.inl ?_) (.inl ?_),
        fun _ => .nothing ?_ ?_⟩ <;> rw [same]
  | ok source =>
      obtain ⟨error, failed⟩ := Option.ne_none_iff_exists'.mp fun succeeds =>
        fails ((error_convertFile_eq_none_iff writes).mpr ⟨source, isText, succeeds⟩)
      have leftOff := Conversion.leftOff_of_error failed
      have becomes := files_convertFile writes isText
      have isRead : ∀ other, files.read file device = .error other →
          (convertFile settings files file device).files = files := by
        intro other unread
        rw [isText] at unread
        cases unread
      refine ⟨noOutput, isRead, elsewhere, ?_, fun leaves => ?_⟩ <;> rw [becomes]
      · have made := FileSystem.sameOrMade_makeParents files (settings.target file) device
        refine remains_of_leftOff files.view.SameOrMade isText leftOff (made _) (made _)
          fun same isMade => ?_
        rwa [View.SameOrMade, ← same]
      · have unmade := view_makeParents_target (stepsUp_of_outDir leaves)
          (files.read_eq file ▸ FileSystem.read_of_device isText) device
        exact remains_of_leftOff (fun view location => view location = files.view location)
          isText leftOff unmade.1 unmade.2 fun same kept => same ▸ kept

end RunSettings

/-! ## Whole runs -/

/-- The files when the first ones of a run have been converted. -/
def RunSettings.filesAfter (settings : RunSettings) (surroundings : Surroundings)
    (before : List Path) (device : Path → Device) : FileSystem :=
  (convertFiles settings surroundings.files before device).2

/-- What becomes of a file of a run, with files converted before it and after it. -/
structure ConvertedInTurn (arguments : Arguments) (surroundings : Surroundings)
    (settings : RunSettings) (device : Path → Device) (before : List Path) (file : Path)
    (after : List Path) : Prop where
  /-- The summary has the report of the file in its place. -/
  reported : ∃ summary, (run arguments surroundings device).outcome = .ok summary ∧
    summary.files[before.length]? =
      some (convertFile settings (settings.filesAfter surroundings before device) file
        (device file)).report
  onward : (run arguments surroundings device).files =
    (convertFiles settings
      (convertFile settings (settings.filesAfter surroundings before device) file
        (device file)).files after device).2
  /-- A file whose report has an error is abandoned. -/
  abandoned :
    (convertFile settings (settings.filesAfter surroundings before device) file
      (device file)).report.error ≠ none →
      settings.Abandoned (settings.filesAfter surroundings before device) file (device file)
        (convertFile settings (settings.filesAfter surroundings before device) file (device file))

/--
**A file of a run that fails has no output, and leaves a first part of its outputs at most**,
whatever the device refuses or breaks off.
-/
theorem run_abandons {arguments : Arguments} {surroundings : Surroundings}
    {settings : RunSettings} {found : List Path}
    (reaches : arguments.conversions? surroundings = some (settings, found))
    (writes : arguments.emitTsx = false) (device : Path → Device) {before after : List Path}
    {file : Path} (isFound : found = before ++ file :: after) :
    ConvertedInTurn arguments surroundings settings device before file after := by
  obtain ⟨outcome, becomes⟩ := run_of_conversions? reaches device
  rw [isFound, convertFiles_append] at outcome becomes
  refine ⟨⟨_, outcome, ?_⟩, becomes, fun fails => ?_⟩
  · have place :
        ((convertFiles settings surroundings.files before device).1.map (·.report)).length =
          before.length := by
      rw [List.length_map, length_convertFiles]
    rw [List.map_append, ← place, List.getElem?_append_right (Nat.le_refl _), Nat.sub_self]
    rfl
  · refine RunSettings.abandoned_convertFile ?_ fails
    rw [Arguments.emitTsx_of_conversions? reaches, writes]

/--
A file that is no text, and after it one whose source map is refused, or whose code a full disk
breaks off.
-/
theorem run_abandons_tag :
    let card : Node := .file (.text "<p/>".toList)
    let files : FileSystem :=
      ⟨[("site".toList, .directory [("Card.astro".toList, .file (.undecodable [255])),
        ("Tag.astro".toList, card), ("out".toList, .directory [
          ("Tag.astro.tsx.map".toList, .directory [])])])]⟩
    let surroundings : Surroundings := { files, currentDirectory := "/site".toList }
    let arguments : Arguments :=
      { paths := ["Card.astro".toList, "Tag.astro".toList], outDir := some "out".toList
        sourcemap := some .external }
    let settings : RunSettings := ⟨"/site".toList, .external, some "/site/out".toList, false⟩
    let before : List Path := ["/site/Card.astro".toList]
    let tag : Path := "/site/Tag.astro".toList
    let found : List Path := ["/site/Card.astro".toList, tag]
    let full : Path → Device := fun _ => .ofCapacity 15
    let fails (device : Path → Device) :=
      (convertFiles settings files found device).1.map (·.report.error.isSome)
    (arguments.conversions? surroundings = some (settings, found) ∧ arguments.emitTsx = false ∧
      found = before ++ tag :: []) ∧
    (fails (fun _ => .reliable) = [true, true] ∧ fails full = [true, true]) ∧
    ConvertedInTurn arguments surroundings settings (fun _ => .reliable) before tag [] ∧
    ConvertedInTurn arguments surroundings settings full before tag [] := by
  intro card files surroundings arguments settings before tag found full fails
  have reaches : arguments.conversions? surroundings = some (settings, found) :=
    arguments.conversions?_of_isFile surroundings "/site".toList rfl (by decide +kernel) rfl
      (by decide +kernel) (by decide +kernel) (by decide +kernel)
  exact ⟨⟨reaches, rfl, rfl⟩, ⟨by decide +kernel, by decide +kernel⟩,
    run_abandons reaches rfl _ rfl, run_abandons reaches rfl full rfl⟩

/--
A file whose source map is refused fails and has left its code, where nothing was.  A file whose
code a full disk breaks off fails and has left ten bytes of it, where another text was.  And with
a step up out of a directory that is made for the target, the directory lies where the code should
go, or where the source map should.
-/
theorem run_failed_leaves_outputs :
    let card : Node := .file (.text "<p/>".toList)
    let refusing : FileSystem :=
      ⟨[("site".toList, .directory [("Card.astro".toList, card),
        ("Card.astro.tsx.map".toList, .directory [])])]⟩
    let earlier : FileSystem :=
      ⟨[("site".toList, .directory [("Card.astro".toList, card),
        ("Card.astro.tsx".toList, .file (.text "old".toList))])]⟩
    let plain : FileSystem := ⟨[("site".toList, .directory [("Card.astro".toList, card)])]⟩
    let single : Path := "/site/Card.astro".toList
    let unmapped : Arguments := { paths := ["Card.astro".toList] }
    let mapped : Arguments := { unmapped with sourcemap := some .external }
    let around (directory : String) : Arguments := { mapped with outDir := some directory.toList }
    let full : Device := .ofCapacity 14
    let beside : RunSettings := ⟨"/site".toList, .omitted, none, false⟩
    let settings : RunSettings := ⟨"/site".toList, .external, none, false⟩
    let toCode : RunSettings :=
      { settings with outDir := some "/site/out/Card.astro.tsx/..".toList }
    let toMap : RunSettings :=
      { settings with outDir := some "/site/out/Card.astro.tsx.map/..".toList }
    (mapped.conversions? ⟨refusing, "/site".toList, .text []⟩ = some (settings, [single]) ∧
      (convertFile settings refusing single).report.error.isSome ∧
      refusing.view (settings.target single).location = none ∧
      ((convertFile settings refusing single).files.view
        (settings.target single).location).isSome) ∧
    (unmapped.conversions? ⟨earlier, "/site".toList, .text []⟩ = some (beside, [single]) ∧
      (convertFile beside earlier single full).report.error.isSome ∧
      earlier.view (beside.target single).location = some (.file (.text "old".toList)) ∧
      (convertFile beside earlier single full).files.view (beside.target single).location =
        some (.file (.text "<Fragment>".toList))) ∧
    ((around "out/Card.astro.tsx/..").conversions? ⟨plain, "/site".toList, .text []⟩ =
        some (toCode, [single]) ∧
      (convertFile toCode plain single).report.error.isSome ∧
      plain.view (toCode.target single).location = none ∧
      (convertFile toCode plain single).files.view (toCode.target single).location =
        some .directory) ∧
    (around "out/Card.astro.tsx.map/..").conversions? ⟨plain, "/site".toList, .text []⟩ =
        some (toMap, [single]) ∧
      (convertFile toMap plain single).report.error.isSome ∧
      plain.view (toMap.mapTarget single).location = none ∧
      (convertFile toMap plain single).files.view (toMap.mapTarget single).location =
        some .directory := by
  intro card refusing earlier plain single unmapped mapped around full beside settings toCode toMap
  have converts (arguments : Arguments) (files : FileSystem) :=
    arguments.conversions?_of_isFile ⟨files, "/site".toList, .text []⟩ "/site".toList
  refine ⟨⟨converts mapped refusing rfl ?_ rfl ?_ ?_ ?_, ?_, ?_, ?_⟩,
    ⟨converts unmapped earlier rfl ?_ rfl ?_ ?_ ?_, ?_, ?_, ?_⟩,
    ⟨converts _ plain rfl ?_ rfl ?_ ?_ ?_, ?_, ?_, ?_⟩,
    converts _ plain rfl ?_ rfl ?_ ?_ ?_, ?_, ?_, ?_⟩ <;> decide +kernel

end ComponentTsx
