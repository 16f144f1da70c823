import ComponentTsx.Proofs.Run.Effect
import Mathlib.Data.List.Nodup
import Mathlib.Data.List.Pairwise

/-!
# The order of conversions

The files of a run can be converted in any order if their outputs do not meet:
they lie in different places, none of them above another, and none where a file
to convert lies (`RunSettings.Independent`).  If the device has restrictions and refuses
nothing else, a conversion then does what it would do alone
(`Independent.effect_after`), its report says the same, and what all of them make
together is what their effects make (`Independent.convertFiles_becomes`).

A step up in the path of an output is asked to leave a directory that is there
before the run.  Otherwise it hangs on the other conversions what becomes of it.
-/

namespace ComponentTsx.RunSettings

set_option autoImplicit false

/-- Where the outputs of a file go. -/
def targets (settings : RunSettings) (file : Path) : List Location :=
  (settings.target file).location ::
    if settings.delivery.isExternal then [(settings.mapTarget file).location] else []

/-- Whether the outputs of files do not meet each other, nor the files. -/
structure KeepsApart (settings : RunSettings) (found : List Path) : Prop where
  distinct : (found.flatMap settings.targets).Nodup
  notNested : ∀ first ∈ found.flatMap settings.targets, ∀ second ∈ found.flatMap settings.targets,
    first <+: second → first = second
  notFound : ∀ file ∈ found, file.location ∉ found.flatMap settings.targets

instance (settings : RunSettings) (found : List Path) : Decidable (settings.KeepsApart found) :=
  decidable_of_iff
    ((found.flatMap settings.targets).Nodup ∧
      (∀ first ∈ found.flatMap settings.targets, ∀ second ∈ found.flatMap settings.targets,
        first <+: second → first = second) ∧
      ∀ file ∈ found, file.location ∉ found.flatMap settings.targets)
    ⟨fun holds => ⟨holds.1, holds.2.1, holds.2.2⟩,
      fun apart => ⟨apart.distinct, apart.notNested, apart.notFound⟩⟩

/-- Whether conversions do not meet: nor do they make directories that others step up from. -/
structure Independent (settings : RunSettings) (files : FileSystem) (found : List Path) : Prop
    extends KeepsApart settings found where
  leavesDirectories : settings.outDir.isSome → ∀ file ∈ found, settings.StepsUp files.view file

variable {settings : RunSettings} {restrictions : Restrictions} {base : FileSystem}
  {found : List Path} {file : Path}

theorem target_mem_targets (settings : RunSettings) (file : Path) :
    (settings.target file).location ∈ settings.targets file := List.mem_cons_self

theorem isExternal_of_map {source map : Text}
    (isMap : (settings.conversionOf file source).map = some map) :
    settings.delivery.isExternal := by
  simp only [conversionOf, Conversion.ofSource] at isMap
  split at isMap
  · assumption
  · cases isMap

theorem mapTarget_mem_targets (external : settings.delivery.isExternal) (file : Path) :
    (settings.mapTarget file).location ∈ settings.targets file := by
  rw [targets, if_pos external]
  exact List.mem_cons_of_mem _ List.mem_cons_self

theorem isExternal_of_isSome_map {source : Text}
    (isMap : (settings.conversionOf file source).map.isSome) : settings.delivery.isExternal := by
  obtain ⟨map, isMap⟩ := Option.isSome_iff_exists.mp isMap
  exact isExternal_of_map isMap

/-- Only targets are written to. -/
theorem mem_targets_of_mem_stored {view : View} {entry : Location × Contents}
    (member : entry ∈ (settings.effect restrictions view file).stored) :
    entry.1 ∈ settings.targets file := by
  cases isText : view.readUnder restrictions file with
  | error error =>
      rw [effect_of_error isText] at member
      cases member
  | ok source =>
      rw [effect_of_ok isText] at member
      rcases Conversion.mem_stored_effect member with same | ⟨isMap, same⟩ <;> rw [same]
      · exact target_mem_targets settings file
      · exact mapTarget_mem_targets (isExternal_of_isSome_map isMap) file

namespace Independent

section Meeting

variable (independent : settings.Independent base found)
include independent

theorem stepsUp (isFile : file ∈ found) : settings.StepsUp base.view file :=
  stepsUp_of_outDir fun given => independent.leavesDirectories given file isFile

theorem not_isPrefix {first second : Path} (isFirst : first ∈ found) (isSecond : second ∈ found)
    (different : first ≠ second) {target other : Location}
    (isTarget : target ∈ settings.targets first) (isOther : other ∈ settings.targets second) :
    ¬ target <+: other := by
  intro above
  have same := independent.notNested target (List.mem_flatMap.mpr ⟨first, isFirst, isTarget⟩) other
    (List.mem_flatMap.mpr ⟨second, isSecond, isOther⟩) above
  have apart := (List.nodup_flatMap.mp independent.distinct).2
  have : Std.Symm (Function.onFun List.Disjoint settings.targets) :=
    ⟨fun _ _ disjoint => List.disjoint_comm.mp disjoint⟩
  have disjoint := apart.forall isFirst isSecond different
  exact disjoint isTarget (same ▸ isOther)

/-- What leads above an output leads above the target. -/
theorem prefix_target_of_prefix_bottom (isFile : file ∈ found) {location : Location}
    (above : location <+: (settings.effect restrictions base.view file).bottom) :
    location <+: (settings.target file).location ∧ location ≠ (settings.target file).location := by
  obtain ⟨outer, name, outputs⟩ := exists_outputs settings file
  have below := above.trans (bottom_effect_isPrefix outputs (independent.stepsUp isFile))
  rw [outputs.location_target]
  refine ⟨below.trans (List.prefix_append _ _), ?_⟩
  rintro rfl
  exact Location.not_concat_isPrefix _ _ below

theorem apart {first second : Path} (isFirst : first ∈ found) (isSecond : second ∈ found)
    (different : first ≠ second) :
    (settings.effect restrictions base.view first).Apart
      (settings.effect restrictions base.view second) := by
  refine ⟨fun entry isStored other isOther same => ?_, fun entry isStored above => ?_,
    fun entry isStored above => ?_⟩
  · refine independent.not_isPrefix isFirst isSecond different
      (mem_targets_of_mem_stored isStored) (mem_targets_of_mem_stored isOther) ?_
    exact same ▸ List.prefix_rfl
  · exact independent.not_isPrefix isFirst isSecond different
      (mem_targets_of_mem_stored isStored) (target_mem_targets settings second)
      (independent.prefix_target_of_prefix_bottom isSecond above).1
  · exact independent.not_isPrefix isSecond isFirst different.symm
      (mem_targets_of_mem_stored isStored) (target_mem_targets settings first)
      (independent.prefix_target_of_prefix_bottom isFirst above).1

/-- No directory is made where an output goes. -/
theorem not_prefix_bottom {first second : Path} (isFirst : first ∈ found)
    (isSecond : second ∈ found) {target : Location} (isTarget : target ∈ settings.targets first) :
    ¬ target <+: (settings.effect restrictions base.view second).bottom := by
  intro above
  obtain ⟨within, notSame⟩ := independent.prefix_target_of_prefix_bottom isSecond above
  exact notSame (independent.notNested target (List.mem_flatMap.mpr ⟨first, isFirst, isTarget⟩) _
    (List.mem_flatMap.mpr ⟨second, isSecond, target_mem_targets settings second⟩) within)

end Meeting

/-! ## After other conversions -/

/-- What is no output is not written. -/
theorem notWritten {done : List Path} {location : Location}
    (noTarget : ∀ other ∈ done, location ∉ settings.targets other) :
    ∀ effect ∈ done.map (settings.effect restrictions base.view),
      location ∉ effect.stored.map (·.1) := by
  intro effect member isWritten
  obtain ⟨other, isDone, rfl⟩ := List.mem_map.mp member
  obtain ⟨entry, isStored, rfl⟩ := List.mem_map.mp isWritten
  exact noTarget other isDone (mem_targets_of_mem_stored isStored)

section After

variable (independent : settings.Independent base found)
  {done : List Path} (among : ∀ other ∈ done, other ∈ found)
include independent among

theorem fits : ∀ effect ∈ done.map (settings.effect restrictions base.view),
    effect.Fits base.view := by
  intro effect member
  obtain ⟨other, isDone, rfl⟩ := List.mem_map.mp member
  exact fits_effect (independent.stepsUp (among other isDone))

variable {files : FileSystem}
  (becomes : base.view.Becomes (done.map (settings.effect restrictions base.view)) files.view)
include becomes

/-- Directories that were there are there. -/
theorem directory {location : Location} (present : base.view location = some .directory) :
    files.view location = some .directory :=
  becomes.directory (independent.fits among) present

variable (isFile : file ∈ found) (new : file ∉ done)
include isFile new

/-- The places of the outputs are as they were. -/
theorem view_target {target : Location} (isTarget : target ∈ settings.targets file) :
    files.view target = base.view target := by
  refine becomes.kept target fun effect member => ⟨?_, ?_⟩
  · refine notWritten (fun other isDone isTargetToo => ?_) effect member
    exact independent.not_isPrefix isFile (among other isDone)
      (ne_of_mem_of_not_mem isDone new).symm isTarget isTargetToo List.prefix_rfl
  · obtain ⟨other, isDone, rfl⟩ := List.mem_map.mp member
    exact independent.not_prefix_bottom isFile (among other isDone) isTarget

omit new in
/-- The file is as it was. -/
theorem view_location (isFound : IsFound base file) :
    files.view file.location = base.view file.location := by
  obtain ⟨contents, holds⟩ := isFound.isFile
  refine becomes.kept file.location fun effect member => ⟨?_, fun above => ?_⟩
  · refine notWritten (fun other isDone isTarget => ?_) effect member
    exact independent.notFound file isFile
      (List.mem_flatMap.mpr ⟨other, among other isDone, isTarget⟩)
  · exact (independent.fits among effect member).free file.location above ⟨contents, holds⟩

omit new in
theorem read_after (isFound : IsFound base file) : files.view.read file = base.view.read file := by
  cases breach : FileSystem.breach? file with
  | some error =>
      rw [View.read, View.read, View.locate_eq_of_breach? breach, View.locate_eq_of_breach? breach]
      rfl
  | none =>
      have leads := isFound.leads (FileSystem.byteLength_lt_of_breach? breach)
      rw [View.locate_eq_pathway breach] at leads
      have leadsAfter := View.pathway_of_directories
        (fun _ present => independent.directory among becomes present) leads
      have same := independent.view_location among becomes isFile isFound
      rw [View.read, View.read, View.locate_eq_pathway breach, View.locate_eq_pathway breach,
        leads, leadsAfter]
      simp only [Except.bind, same]

omit new in
theorem stepsUp_after (isFound : IsFound base file) : settings.StepsUp files.view file := by
  intro source isText before after whole
  rw [independent.read_after among becomes isFile isFound] at isText
  obtain ⟨location, leads, present⟩ := independent.stepsUp isFile source isText before after whole
  exact ⟨location, View.pathway_of_directories
      (fun _ present => independent.directory among becomes present) leads,
    independent.directory among becomes present⟩

/-- How far directories can be made is as it was. -/
theorem making_after {source : Text} (isText : base.view.read file = .ok source) :
    files.view.making (settings.target file) = base.view.making (settings.target file) := by
  obtain ⟨outer, name, outputs⟩ := exists_outputs settings file
  have steps := independent.stepsUp isFile source isText
  have agree : ∀ first second, outer = first ++ second →
      (files.view.HasFile (Path.locationFrom [] first) ↔
        base.view.HasFile (Path.locationFrom [] first)) := by
    intro first second whole
    by_cases stepsUp : ['.', '.'] ∈ second
    · -- A later step up leaves a directory that was there, and so does each step before it.
      obtain ⟨between, after, split⟩ := List.append_of_mem stepsUp
      obtain ⟨location, leads, present⟩ := steps (first ++ between)
        (after ++ [name ++ tsxEnding]) (by rw [outputs.target, whole, split]; simp)
      have passed := View.directory_of_pathway_append leads present
      exact iff_of_false
        (View.not_hasFile_of_directory (independent.directory among becomes passed))
        (View.not_hasFile_of_directory passed)
    · refine becomes.hasFile_iff (independent.fits among)
        (notWritten fun other isDone isTarget => ?_)
      refine independent.not_isPrefix (among other isDone) isFile
        (ne_of_mem_of_not_mem isDone new) isTarget (target_mem_targets settings file) ?_
      rw [outputs.location_target, whole, Path.locationFrom_append]
      exact (Path.prefix_locationFrom stepsUp _).trans (List.prefix_append _ _)
  rw [View.making, View.making, outputs.target, List.dropLast_concat, View.way_congr agree]

/-- **After other conversions a conversion does what it would have done before them.** -/
theorem effect_after (isFound : IsFound base file) :
    settings.effect restrictions files.view file =
      settings.effect restrictions base.view file := by
  have same : files.view.readUnder restrictions file = base.view.readUnder restrictions file :=
    View.readUnder_congr (independent.read_after among becomes isFile isFound)
  cases isText : base.view.readUnder restrictions file with
  | error error =>
      rw [isText] at same
      rw [effect_of_error isText, effect_of_error same]
  | ok source =>
      rw [isText] at same
      rw [effect_of_ok isText, effect_of_ok same]
      refine Conversion.effect_congr
        (independent.making_after among becomes isFile new (View.read_of_readUnder isText))
        (independent.view_target among becomes isFile new (target_mem_targets settings file))
        fun isMap => ?_
      exact independent.view_target among becomes isFile new
        (mapTarget_mem_targets (isExternal_of_isSome_map isMap) file)

/-- After other conversions a report says what it would have said before them. -/
theorem report_after (writes : settings.emitTsx = false) (isFound : IsFound base file) :
    (convertFile settings files file (.ofRestrictions restrictions)).report =
      (convertFile settings base file (.ofRestrictions restrictions)).report := by
  obtain ⟨outer, name, outputs⟩ := exists_outputs settings file
  have sameText : files.view.readUnder restrictions file =
      base.view.readUnder restrictions file :=
    View.readUnder_congr (independent.read_after among becomes isFile isFound)
  refine report_convertFile_congr writes
    (by rw [files.readUnder_eq, base.readUnder_eq, sameText]) fun source isText => ?_
  rw [files.readUnder_eq] at isText
  have after :=
    performs_outcomeOf outputs (independent.stepsUp_after among becomes isFile isFound) isText
  have before := performs_outcomeOf outputs (independent.stepsUp isFile) (sameText ▸ isText)
  rw [after.error, before.error, independent.effect_after among becomes isFile new isFound]

end After

/-! ## All conversions -/

/--
**Files are converted as if each were alone.**  The reports say what each file's own would say, and
what is made is what the effects make.
-/
theorem convertFiles_becomes (independent : settings.Independent base found)
    (areFound : ∀ file ∈ found, IsFound base file) (writes : settings.emitTsx = false)
    {order done : List Path} {files : FileSystem} (nodup : (order ++ done).Nodup)
    (among : ∀ other ∈ order ++ done, other ∈ found)
    (becomes : base.view.Becomes (done.map (settings.effect restrictions base.view)) files.view) :
    let device := Device.ofRestrictions restrictions
    (convertFiles settings files order fun _ => device).1.map (·.report) =
        order.map (fun file => (convertFile settings base file device).report) ∧
      base.view.Becomes ((order.reverse ++ done).map (settings.effect restrictions base.view))
        (convertFiles settings files order fun _ => device).2.view := by
  induction order generalizing done files with
  | nil => exact ⟨rfl, becomes⟩
  | cons file rest ih =>
      have amongDone : ∀ other ∈ done, other ∈ found := fun other isDone =>
        among other (List.mem_append_right _ isDone)
      have isFile : file ∈ found := among file List.mem_cons_self
      have nodupNext : (rest ++ file :: done).Nodup :=
        (List.perm_middle.nodup_iff).mpr nodup
      have new : file ∉ done := (List.nodup_cons.mp (List.nodup_append.mp nodupNext).2.1).1
      have yields := convertFile_yields writes restrictions
        (independent.stepsUp_after amongDone becomes isFile (areFound file isFile))
      rw [independent.effect_after amongDone becomes isFile new (areFound file isFile)] at yields
      have next : base.view.Becomes ((file :: done).map (settings.effect restrictions base.view))
          (convertFile settings files file (.ofRestrictions restrictions)).files.view := by
        refine becomes.cons yields fun effect member => ?_
        obtain ⟨other, isDone, rfl⟩ := List.mem_map.mp member
        exact independent.apart (amongDone other isDone) isFile (ne_of_mem_of_not_mem isDone new)
      obtain ⟨reports, made⟩ := ih nodupNext
        (fun other member => among other (List.perm_middle.mem_iff.mp member)) next
      rw [List.reverse_cons, List.append_assoc]
      refine ⟨?_, made⟩
      rw [convertFiles, List.map_cons, List.map_cons,
        independent.report_after amongDone becomes isFile new writes (areFound file isFile)]
      exact congrArg _ reports

end Independent

end ComponentTsx.RunSettings
