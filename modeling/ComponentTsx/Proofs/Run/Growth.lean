import ComponentTsx.Proofs.Discovery.Stability
import ComponentTsx.Proofs.Run.Frame
import ComponentTsx.Proofs.Run.Order

/-!
# What a run leaves as it was

All that a run does to the file system is to write to the targets of its files and to
make directories, whatever its device refuses (`grows_convertFiles`).  The names of
the targets have endings of their own, so a search for components never finds one
(`misses_targets`), and what is read elsewhere is read as before: the components
(`IsFound.read_of_grows`) and, unless its path steps up from a directory that is not
there yet, the configuration (`Config.load_of_grows`).
-/

namespace ComponentTsx

set_option autoImplicit false

/-! ## Conversions -/

section Conversions

variable {places : Location → Prop} {files : FileSystem}

theorem Conversion.grows_writeTo {conversion : Conversion} {target mapTarget : Path}
    (code : places target.location) (map : conversion.map.isSome → places mapTarget.location)
    (device : Device) :
    FileSystem.Grows places files (conversion.writeTo files target mapTarget device).files := by
  have written : FileSystem.Grows places files
      ((files.makeParents target device).andWrite target conversion.code device).files :=
    FileSystem.Outcome.grows_andWrite code (FileSystem.grows_makeParents files target device)
      conversion.code device
  unfold writeTo
  cases isMap : conversion.map with
  | none => exact written
  | some text =>
      exact FileSystem.Outcome.grows_andWrite (map (by rw [isMap]; rfl)) written text device

variable {settings : RunSettings}

theorem grows_convertFile {file : Path} (among : ∀ target ∈ settings.targets file, places target)
    (device : Device) :
    FileSystem.Grows places files (convertFile settings files file device).files := by
  cases writes : settings.emitTsx with
  | true =>
      rw [files_convertFile_of_emitTsx writes]
  | false =>
      cases isText : files.read file device with
      | error error =>
          rw [convertFile, isText]
      | ok source =>
          rw [RunSettings.files_convertFile writes isText]
          refine Conversion.grows_writeTo (among _ (RunSettings.target_mem_targets settings file))
            (fun isMap => ?_) device
          obtain ⟨map, isMap⟩ := Option.isSome_iff_exists.mp isMap
          have external := RunSettings.isExternal_of_map isMap
          exact among _ (RunSettings.mapTarget_mem_targets external file)

/-- **A run makes directories and writes to targets, and does nothing else.** -/
theorem grows_convertFiles {order : List Path}
    (among : ∀ file ∈ order, ∀ target ∈ settings.targets file, places target)
    (device : Path → Device) :
    FileSystem.Grows places files (convertFiles settings files order device).2 := by
  induction order generalizing files with
  | nil => exact .refl
  | cons file rest ih =>
      obtain ⟨here, later⟩ := List.forall_mem_cons.mp among
      exact (grows_convertFile here (device file)).trans (ih later)

end Conversions

/-! ## Names of outputs -/

namespace RunSettings

variable {settings : RunSettings} {order : List Path}

/-- An output has a name with one of two endings. -/
theorem exists_of_mem_targets {file : Path} {target : Location}
    (isTarget : target ∈ settings.targets file) :
    ∃ outer name ending, ending ∈ [tsxEnding, tsxEnding ++ mapEnding] ∧
      target = outer ++ [name ++ ending] ∧ '/' ∉ name ++ ending := by
  obtain ⟨outer, name, outputs⟩ := exists_outputs settings file
  have noSlash {path : Path} {last : Text} (whole : path.segments = outer ++ [last]) :
      '/' ∉ last := by
    have inside : last ∈ path.segments := by
      rw [whole]
      exact List.mem_append_right outer List.mem_cons_self
    exact Path.notMem_of_mem_segments inside
  rcases List.mem_cons.mp isTarget with rfl | isMap
  · exact ⟨_, name, tsxEnding, List.mem_cons_self, outputs.location_target, noSlash outputs.target⟩
  · split at isMap
    · rw [List.mem_singleton.mp isMap]
      refine ⟨Path.locationFrom [] outer, name, tsxEnding ++ mapEnding, by simp, ?_, ?_⟩
      · rw [← List.append_assoc]
        exact location_of_isName outputs.mapTarget Outputs.isName_mapTarget
      · rw [← List.append_assoc]
        exact noSlash outputs.mapTarget
    · cases isMap

/-- Names with an ending that none of the outputs have are no names of outputs. -/
theorem not_suffix_of_mem_targets {file : Path} {outer : Location} {name ending : Text}
    (isTarget : outer ++ [name] ∈ settings.targets file)
    (other : ∀ given ∈ [tsxEnding, tsxEnding ++ mapEnding],
      ¬ ending <:+ given ∧ ¬ given <:+ ending) : ¬ ending <:+ name := by
  obtain ⟨_, _, given, isGiven, same, _⟩ := exists_of_mem_targets isTarget
  obtain ⟨_, same⟩ := List.append_inj' same rfl
  rw [(List.cons.inj same).1]
  intro ends
  exact (List.suffix_or_suffix_of_suffix ends (List.suffix_append _ given)).elim
    (other given isGiven).1 (other given isGiven).2

/-- The ending of the names of components, unless the configuration gives others. -/
def componentEnding : Text := ".astro".toList

theorem not_componentEnding_of_mem_targets {file : Path} {outer : Location} {name : Text}
    (isTarget : outer ++ [name] ∈ settings.targets file) : ¬ componentEnding <:+ name :=
  not_suffix_of_mem_targets isTarget (by decide)

/-- **A search for components finds no output.** -/
theorem misses_targets {criteria : Discovery.Criteria}
    (byDefault : criteria.endings = [componentEnding]) (order : List Path) :
    criteria.Misses (· ∈ order.flatMap settings.targets) := by
  intro outer name place
  obtain ⟨file, _, isTarget⟩ := List.mem_flatMap.mp place
  obtain ⟨_, inner, given, isGiven, same, noSlash⟩ := exists_of_mem_targets isTarget
  obtain ⟨_, same⟩ := List.append_inj' same rfl
  obtain rfl := (List.cons.inj same).1
  have long : ∀ given ∈ [tsxEnding, tsxEnding ++ mapEnding], 2 < given.length := by decide
  refine ⟨isName_append (long given isGiven) inner, noSlash, fun ending isEnding => ?_⟩
  rw [byDefault, List.mem_singleton] at isEnding
  rw [isEnding]
  exact not_componentEnding_of_mem_targets isTarget

/-- No configuration file of a workspace is an output. -/
theorem configName_notMem_targets (settings : RunSettings) (file workspace : Path) :
    (workspace.join configName).location ∉ settings.targets file := by
  have relative : ¬ Path.isAbsolute configName := by decide
  have segments : Path.segments configName = [configName] :=
    Path.segments_of_notMem (by decide)
  obtain ⟨before, whole, _⟩ := Path.exists_segments_join workspace relative
  rw [segments] at whole
  rw [location_of_isName whole (by decide)]
  intro isTarget
  have ends : ".json".toList <:+ configName := by decide
  exact not_suffix_of_mem_targets isTarget (by decide) ends

/-- **A file that is collected is no output, unless it is named.** -/
theorem notMem_targets_of_collect {files : FileSystem} (sound : files.isSound)
    {criteria : Discovery.Criteria} (byDefault : criteria.endings = [componentEnding])
    (absolute : criteria.workspace.isAbsolute) {paths found : List Path}
    (collected : Discovery.collect files criteria paths = .ok found)
    (named : ∀ path ∈ paths, files.isFile (Path.resolve criteria.workspace path) →
      (Path.resolve criteria.workspace path).location ∉ order.flatMap settings.targets) :
    ∀ file ∈ found, file.location ∉ order.flatMap settings.targets := by
  intro file isCollected
  obtain ⟨argument, isArgument, result, given, inside⟩ :=
    Discovery.exists_of_mem_collect collected isCollected
  have found := (Discovery.isFound_of_collect sound absolute collected).1 file isCollected
  unfold Discovery.filesFor? at given
  split at given
  · rename_i isFile
    cases given
    rw [List.mem_singleton.mp inside]
    exact named argument isArgument isFile
  · split at given
    · cases given
      obtain ⟨before, last, whole, isName⟩ := found.ends
      have admits := (List.mem_filter.mp inside).2
      rw [Discovery.Criteria.admits, fileName?_of_isName found.absolute whole isName, byDefault,
        Option.getD_some, Bool.and_eq_true, List.any_cons, List.any_nil, Bool.or_false,
        List.isSuffixOf_iff_suffix] at admits
      rw [location_of_isName whole isName]
      intro isTarget
      obtain ⟨other, _, isTarget⟩ := List.mem_flatMap.mp isTarget
      exact not_componentEnding_of_mem_targets isTarget admits.1
    · cases given

end RunSettings

/-! ## What is read -/

section Reading

variable {places : Location → Prop} {files later : FileSystem} {path : Path}

theorem View.read_eq_ok_iff {view : View} {text : Text} :
    view.read path = .ok text ↔
      view.locate path = .ok path.location ∧ view path.location = some (.file (.text text)) := by
  rw [View.read]
  cases leads : view.locate path with
  | error error => simp [Except.bind]
  | ok location =>
      obtain rfl := View.eq_location_of_locate leads
      simp only [Except.bind, true_and]
      cases view path.location with
      | none => simp
      | some seen =>
          cases seen with
          | directory => simp
          | file contents => cases contents <;> simp

/-- **A file that was found is read as before.** -/
theorem IsFound.read_of_grows (found : IsFound files path)
    (grows : FileSystem.Grows places files later) (elsewhere : ¬ places path.location) :
    later.read path = files.read path := by
  obtain ⟨contents, holds⟩ := found.isFile
  have holdsLater := (grows.sameOrMade elsewhere).file holds
  rw [later.read_eq, files.read_eq, View.read, View.read]
  cases breach : FileSystem.breach? path with
  | some error =>
      rw [View.locate_eq_of_breach? breach, View.locate_eq_of_breach? breach]
      rfl
  | none =>
      have leads := found.leads (FileSystem.byteLength_lt_of_breach? breach)
      rw [leads, grows.keeps.locate_eq_ok leads]
      simp only [Except.bind, holds, holdsLater]

/-- A text is read later only if it was read before, where steps up left directories. -/
theorem read_eq_ok_of_grows (grows : FileSystem.Grows places files later)
    (elsewhere : ¬ places path.location) (steps : files.view.StepsUp [] path.segments)
    (text : Text) : later.read path = .ok text ↔ files.read path = .ok text := by
  have same := grows.sameOrMade elsewhere
  rw [later.read_eq, files.read_eq, View.read_eq_ok_iff, View.read_eq_ok_iff]
  constructor
  · rintro ⟨leads, holds⟩
    have held := same.eq_of_file holds
    refine ⟨?_, held⟩
    cases breach : FileSystem.breach? path with
    | some error =>
        rw [View.locate_eq_of_breach? breach] at leads
        cases leads
    | none =>
        rw [View.locate_eq_pathway breach] at leads ⊢
        have present : files.view path.location ≠ none := by
          rw [held]
          exact Option.some_ne_none _
        exact FileSystem.pathway_of_later grows.keeps steps leads present
  · rintro ⟨leads, held⟩
    exact ⟨grows.keeps.locate_eq_ok leads, same.file held⟩

/-- **A configuration stays what it was.** -/
theorem Config.load_of_grows (grows : FileSystem.Grows places files later) {workspace : Path}
    {given : Option Path} (elsewhere : ¬ places (workspace.join (given.getD configName)).location)
    (steps : files.view.StepsUp [] (workspace.join (given.getD configName)).segments) :
    Config.load later workspace given = Config.load files workspace given := by
  have same := read_eq_ok_of_grows grows elsewhere steps
  rw [Config.load, Config.load]
  cases before : files.read (workspace.join (given.getD configName)) with
  | ok text => rw [(same text).mpr before]
  | error error =>
      cases after : later.read (workspace.join (given.getD configName)) with
      | ok text => cases before.symm.trans ((same text).mp after)
      | error other => rfl

end Reading

end ComponentTsx
