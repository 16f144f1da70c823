import ComponentTsx.Proofs.FileSystem.Effect
import ComponentTsx.Proofs.FileSystem.Faults
import ComponentTsx.Proofs.Run.Targets

/-!
# What the conversion of a file does

What a conversion does under restrictions can be told from the view before it
(`RunSettings.effect`): the directories of the target are made as far as they can
be, the code is written unless it is refused, and then the source map if the code was
accepted as a whole.  The conversion does just that (`convertFile_yields`).
-/

namespace ComponentTsx

set_option autoImplicit false

/-! ## Reading -/

/-- The text of the file that a path leads to. -/
def View.read (view : View) (path : Path) : Except FileError Text :=
  (view.locate path).bind fun location =>
    match view location with
    | none => .error .notFound
    | some .directory => .error .isDirectory
    | some (.file (.undecodable _)) => .error .undecodable
    | some (.file (.text text)) => .ok text

theorem FileSystem.read_eq (files : FileSystem) (path : Path) :
    files.read path = files.view.read path := by
  rw [read, Device.permit_reliable, View.read, locate_eq]
  cases files.view.locate path with
  | error error => rfl
  | ok location =>
      cases found : files.node? location with
      | none => simp [Except.map, Except.bind, bind, view, found]
      | some node =>
          cases node with
          | directory entries =>
              simp [Except.map, Except.bind, bind, view, found, Node.seen]
          | file contents =>
              cases contents <;> simp [Except.map, Except.bind, bind, view, found, Node.seen]

namespace View

variable {view : View} {restrictions : Restrictions} {path : Path}

/-- The text of the file that a path leads to, under restrictions. -/
def readUnder (view : View) (restrictions : Restrictions) (path : Path) : Except FileError Text :=
  match restrictions.read? path with
  | some fault => .error (.device fault)
  | none => view.read path

theorem read_of_readUnder {text : Text} (isText : view.readUnder restrictions path = .ok text) :
    view.read path = .ok text := by
  unfold readUnder at isText
  split at isText
  · cases isText
  · exact isText

theorem readUnder_congr {other : View} (same : view.read path = other.read path) :
    view.readUnder restrictions path = other.readUnder restrictions path := by
  rw [readUnder, readUnder, same]

end View

theorem FileSystem.readUnder_eq (files : FileSystem) (restrictions : Restrictions) (path : Path) :
    files.read path (.ofRestrictions restrictions) = files.view.readUnder restrictions path := by
  rw [read_ofRestrictions, View.readUnder]
  cases restrictions.read? path with
  | some fault => rfl
  | none => exact files.read_eq path

/-! ## Writing -/

/-- Why no text is written to a path under restrictions, though there is a directory for it. -/
def View.refusalUnder? (view : View) (restrictions : Restrictions) (path : Path) :
    Option FileError :=
  match restrictions.write? path with
  | some fault => some (.device fault)
  | none => view.refusal? path

theorem View.refusal?_of_refusalUnder? {view : View} {restrictions : Restrictions} {path : Path}
    (accepted : view.refusalUnder? restrictions path = none) : view.refusal? path = none := by
  unfold refusalUnder? at accepted
  split at accepted
  · cases accepted
  · exact accepted

/-- The effect with a text written to a path, if all went well so far and nothing refuses it. -/
def Effect.andWrite (effect : Effect) (restrictions : Restrictions) (view : View) (path : Path)
    (text : Text) : Effect :=
  match effect.error with
  | some _ => effect
  | none =>
      match view.refusalUnder? restrictions path with
      | some error => { effect with error := some error }
      | none =>
          let (contents, error) := restrictions.accepted path text
          { effect with stored := effect.stored ++ [(path.location, contents)], error }

/-- What making the directories for a path does. -/
def Effect.ofMaking (view : View) (path : Path) : Effect where
  bottom := (view.making path).1
  error := (view.making path).2

/-- What writing a conversion does. -/
def Conversion.effect (conversion : Conversion) (restrictions : Restrictions) (view : View)
    (target mapTarget : Path) : Effect :=
  let written := (Effect.ofMaking view target).andWrite restrictions view target conversion.code
  match conversion.map with
  | some map => written.andWrite restrictions view mapTarget map
  | none => written

/-- The conversion of a source that was read from a file. -/
def RunSettings.conversionOf (settings : RunSettings) (file : Path) (source : Text) : Conversion :=
  Conversion.ofSource source (some file) settings.delivery

/-- What the conversion of a file does. -/
def RunSettings.effect (settings : RunSettings) (restrictions : Restrictions) (view : View)
    (file : Path) : Effect :=
  match view.readUnder restrictions file with
  | .error _ => {}
  | .ok source =>
      (settings.conversionOf file source).effect restrictions view (settings.target file)
        (settings.mapTarget file)

namespace Effect

variable {effect : Effect} {restrictions : Restrictions} {view : View} {path : Path} {text : Text}

/-- What writing comes to: it is left undone, it is refused, or what is accepted is stored. -/
theorem andWrite_cases (effect : Effect) (restrictions : Restrictions) (view : View) (path : Path)
    (text : Text) :
    (∃ error, effect.error = some error ∧
      effect.andWrite restrictions view path text = effect) ∨
    effect.error = none ∧
      ((∃ error, view.refusalUnder? restrictions path = some error ∧
        effect.andWrite restrictions view path text =
          ⟨effect.bottom, effect.stored, some error⟩) ∨
      view.refusalUnder? restrictions path = none ∧
        effect.andWrite restrictions view path text =
          ⟨effect.bottom,
            effect.stored ++ [(path.location, (restrictions.accepted path text).1)],
            (restrictions.accepted path text).2⟩) := by
  rw [andWrite]
  cases failed : effect.error with
  | some error => exact .inl ⟨error, rfl, rfl⟩
  | none =>
      cases refused : view.refusalUnder? restrictions path with
      | some error => exact .inr ⟨rfl, .inl ⟨error, rfl, rfl⟩⟩
      | none => exact .inr ⟨rfl, .inr ⟨rfl, rfl⟩⟩

theorem andWrite_congr {other : View} (same : view path.location = other path.location) :
    effect.andWrite restrictions view path text = effect.andWrite restrictions other path text := by
  rw [andWrite, andWrite, View.refusalUnder?, View.refusalUnder?, View.refusal?_congr same]

@[simp] theorem andWrite_bottom :
    (effect.andWrite restrictions view path text).bottom = effect.bottom := by
  rcases andWrite_cases effect restrictions view path text with
    ⟨_, _, same⟩ | ⟨_, ⟨_, _, same⟩ | ⟨_, same⟩⟩ <;> rw [same]

theorem mem_stored_andWrite {entry : Location × Contents}
    (member : entry ∈ (effect.andWrite restrictions view path text).stored) :
    entry ∈ effect.stored ∨ entry = (path.location, (restrictions.accepted path text).1) := by
  rcases andWrite_cases effect restrictions view path text with
    ⟨_, _, same⟩ | ⟨_, ⟨_, _, same⟩ | ⟨_, same⟩⟩ <;> rw [same] at member
  · exact .inl member
  · exact .inl member
  · exact (List.mem_append.mp member).imp_right List.mem_singleton.mp

end Effect

namespace FileSystem

/--
Whether an outcome is that of an effect, and the effect, unless it failed, got down to where some
segments lead.
-/
structure Performs (files : FileSystem) (outer : List Text) (effect : Effect) (outcome : Outcome) :
    Prop where
  error : outcome.error = effect.error
  yields : effect.Yields files.view outcome.files.view
  reaches : effect.error = none → files.view.way [] outer = (effect.bottom, none)
  noDirectory : ∀ entry ∈ effect.stored, files.view entry.1 ≠ some .directory

variable {files : FileSystem} {path : Path} {outer : List Text} {last : Text}

theorem performs_makeParents (whole : path.segments = outer ++ [last]) (named : Path.isName last)
    (steps : files.view.StepsUp [] path.segments) :
    Performs files outer (.ofMaking files.view path) (files.makeParents path) := by
  have follows := makeParents_follows whole named steps
  refine ⟨follows.error, ?_, fun succeeds => ?_, nofun⟩
  · rw [follows.files]
    exact Effect.yields_withDirectory files.view _ _
  · change files.view.way [] outer = ((files.view.making path).1, none)
    change (files.view.making path).2 = none at succeeds
    rw [View.making, whole, List.dropLast_concat] at succeeds ⊢
    split at succeeds
    · cases succeeds
    · exact Prod.ext rfl succeeds

/-- A text is written to a path under restrictions, where there is a directory for it. -/
theorem write_of_leads {bottom : Location} (whole : path.segments = outer ++ [last])
    (named : Path.isName last) (leads : files.view.pathway [] outer = .ok bottom)
    (directory : files.view bottom = some .directory) (restrictions : Restrictions)
    (text : Text) :
    (∃ error, files.view.refusalUnder? restrictions path = some error ∧
      files.write path text (.ofRestrictions restrictions) = ⟨files, some error⟩) ∨
    ∃ changed, files.view.refusalUnder? restrictions path = none ∧
      files.write path text (.ofRestrictions restrictions) =
        ⟨changed, (restrictions.accepted path text).2⟩ ∧
      changed.view = Function.update files.view path.location
        (some (.file (restrictions.accepted path text).1)) := by
  rw [View.refusalUnder?]
  cases permitted : restrictions.write? path with
  | some fault => exact .inl ⟨_, rfl, write_of_withheld permitted⟩
  | none =>
      rcases store_of_leads whole named leads directory (restrictions.accepted path text).1 with
        ⟨error, refused, fails⟩ | ⟨changed, accepted, stores, becomes⟩
      · exact .inl ⟨error, refused, write_of_refuses permitted fails⟩
      · exact .inr ⟨changed, accepted, write_of_stores permitted stores, becomes⟩

/-- One more text is written as the effect says. -/
theorem Performs.andWrite {effect : Effect} {outcome : Outcome}
    (performs : Performs files outer effect outcome) (steps : files.view.StepsUp [] outer)
    (whole : path.segments = outer ++ [last]) (named : Path.isName last)
    (new : path.location ∉ effect.stored.map (·.1)) (restrictions : Restrictions) (text : Text) :
    Performs files outer (effect.andWrite restrictions files.view path text)
      (outcome.andWrite path text (.ofRestrictions restrictions)) := by
  unfold Outcome.andWrite
  rcases Effect.andWrite_cases effect restrictions files.view path text with
    ⟨error, failed, same⟩ | ⟨succeeds, written⟩
  · rw [same, performs.error, failed]
    exact performs
  have reaches := performs.reaches succeeds
  have leads : outcome.files.view.pathway [] outer = .ok effect.bottom := by
    refine View.pathway_of_directories (fun location directory => ?_)
      (View.pathway_withDirectory steps reaches (View.withDirectory_of_directory (view_nil files)))
    by_cases above : location <+: effect.bottom
    · exact performs.yields.made location above
    · rw [View.withDirectory_of_not_isPrefix above] at directory
      rw [performs.yields.kept location (fun isWritten => ?_) above, directory]
      obtain ⟨entry, isStored, rfl⟩ := List.mem_map.mp isWritten
      exact performs.noDirectory entry isStored directory
  have directory := performs.yields.made effect.bottom List.prefix_rfl
  have apart : ¬ path.location <+: effect.bottom := by
    rw [location_of_pathway whole named leads]
    exact Location.not_concat_isPrefix effect.bottom last
  have same : outcome.files.view.refusalUnder? restrictions path =
      files.view.refusalUnder? restrictions path := by
    rw [View.refusalUnder?, View.refusalUnder?,
      View.refusal?_congr (performs.yields.kept path.location new apart)]
  rw [performs.error, succeeds]
  dsimp only
  rcases write_of_leads whole named leads directory restrictions text with
    ⟨error, refused, fails⟩ | ⟨changed, accepted, writes, becomes⟩
  · rw [same] at refused
    rcases written with ⟨other, refusedAlso, isWritten⟩ | ⟨accepted, _⟩
    · cases refused.symm.trans refusedAlso
      rw [isWritten, fails]
      exact ⟨rfl, ⟨performs.yields.written, performs.yields.made, performs.yields.kept⟩,
        fun succeeds => absurd succeeds (Option.some_ne_none error), performs.noDirectory⟩
    · cases refused.symm.trans accepted
  · rw [same] at accepted
    rcases written with ⟨other, refused, _⟩ | ⟨_, isWritten⟩
    · cases refused.symm.trans accepted
    · rw [isWritten, writes]
      refine ⟨rfl, ?_, fun _ => reaches, fun entry isStored => ?_⟩
      · rw [becomes]
        exact performs.yields.write apart new _ _
      · rcases List.mem_append.mp isStored with earlier | last
        · exact performs.noDirectory entry earlier
        · rw [List.mem_singleton.mp last]
          exact View.ne_directory_of_accepted (View.refusal?_of_refusalUnder? accepted)

end FileSystem

/-! ## Conversions -/

namespace Conversion

variable {conversion : Conversion} {restrictions : Restrictions} {view : View}
  {target mapTarget : Path}

theorem bottom_effect :
    (conversion.effect restrictions view target mapTarget).bottom = (view.making target).1 := by
  unfold effect
  split <;> simp [Effect.ofMaking]

/-- Only the code and the source map are written. -/
theorem mem_stored_effect {entry : Location × Contents}
    (member : entry ∈ (conversion.effect restrictions view target mapTarget).stored) :
    entry.1 = target.location ∨ conversion.map.isSome ∧ entry.1 = mapTarget.location := by
  have inCode (member : entry ∈ ((Effect.ofMaking view target).andWrite restrictions view target
      conversion.code).stored) : entry.1 = target.location := by
    rw [(Effect.mem_stored_andWrite member).resolve_left List.not_mem_nil]
  unfold effect at member
  split at member
  · rename_i map isMap
    rcases Effect.mem_stored_andWrite member with earlier | last
    · exact .inl (inCode earlier)
    · exact .inr ⟨by rw [isMap]; rfl, by rw [last]⟩
  · exact .inl (inCode member)

/-- An effect depends on how far directories can be made, and on what stands at the targets. -/
theorem effect_congr {other : View} (making : view.making target = other.making target)
    (atTarget : view target.location = other target.location)
    (atMap : conversion.map.isSome → view mapTarget.location = other mapTarget.location) :
    conversion.effect restrictions view target mapTarget =
      conversion.effect restrictions other target mapTarget := by
  have written :
      (Effect.ofMaking view target).andWrite restrictions view target conversion.code =
        (Effect.ofMaking other target).andWrite restrictions other target conversion.code := by
    rw [Effect.ofMaking, making, Effect.andWrite_congr atTarget, Effect.ofMaking]
  unfold effect
  cases isMap : conversion.map with
  | none => exact written
  | some map =>
      simp only [written]
      exact Effect.andWrite_congr (atMap (by rw [isMap]; rfl))

/-- A conversion is written as its effect says. -/
theorem performs_writeTo {files : FileSystem} {outer : List Text} {last mapLast : Text}
    (whole : target.segments = outer ++ [last]) (named : Path.isName last)
    (mapWhole : mapTarget.segments = outer ++ [mapLast]) (mapNamed : Path.isName mapLast)
    (apart : last ≠ mapLast) (steps : files.view.StepsUp [] target.segments)
    (restrictions : Restrictions) (conversion : Conversion) :
    FileSystem.Performs files outer
      (conversion.effect restrictions files.view target mapTarget)
      (conversion.writeTo files target mapTarget (.ofRestrictions restrictions)) := by
  have outerSteps : files.view.StepsUp [] outer := by
    rw [whole] at steps
    exact steps.of_append
  have written := (FileSystem.performs_makeParents whole named steps).andWrite outerSteps whole
    named List.not_mem_nil restrictions conversion.code
  unfold effect writeTo
  rw [FileSystem.makeParents_ofRestrictions]
  cases conversion.map with
  | none => exact written
  | some map =>
      refine written.andWrite outerSteps mapWhole mapNamed (fun isWritten => ?_) restrictions map
      obtain ⟨entry, isStored, same⟩ := List.mem_map.mp isWritten
      obtain rfl := (Effect.mem_stored_andWrite isStored).resolve_left List.not_mem_nil
      change target.location = mapTarget.location at same
      rw [RunSettings.location_of_isName whole named,
        RunSettings.location_of_isName mapWhole mapNamed] at same
      exact apart (List.cons.inj (List.append_cancel_left same)).1

end Conversion

/-! ## Files -/

namespace RunSettings

variable {settings : RunSettings} {file : Path}

/-- What is appended to the name of an output for its source map. -/
def mapEnding : Text := ".map".toList

/-- Where the outputs of a file lie: in one directory, by different names. -/
structure Outputs (settings : RunSettings) (file : Path) (outer : List Text) (name : Text) :
    Prop where
  target : (settings.target file).segments = outer ++ [name ++ tsxEnding]
  mapTarget : (settings.mapTarget file).segments = outer ++ [name ++ tsxEnding ++ mapEnding]

theorem exists_outputs (settings : RunSettings) (file : Path) :
    ∃ outer name, Outputs settings file outer name := by
  obtain ⟨place, whole⟩ : ∃ place, settings.target file = place ++ tsxEnding := ⟨_, rfl⟩
  obtain ⟨outer, name, split, _⟩ := Path.exists_segments_append place
  have target : (settings.target file).segments = outer ++ [name ++ tsxEnding] := by
    rw [whole, Path.segments_append_of_eq split (by decide)]
  exact ⟨outer, name, target, Path.segments_append_of_eq target (by decide)⟩

namespace Outputs

variable {outer : List Text} {name : Text}

theorem isName_mapTarget : Path.isName (name ++ tsxEnding ++ mapEnding) :=
  isName_append (by decide) (name ++ tsxEnding)

theorem names_ne : name ++ tsxEnding ≠ name ++ tsxEnding ++ mapEnding := by
  intro same
  have empty := List.self_eq_append_right.mp same
  exact absurd empty (by decide)

theorem location_target (outputs : Outputs settings file outer name) :
    (settings.target file).location = Path.locationFrom [] outer ++ [name ++ tsxEnding] :=
  location_of_isName outputs.target (isName_append_tsxEnding name)

end Outputs

/-- Whether every step up in the target of a file that can be read leaves a directory. -/
def StepsUp (settings : RunSettings) (view : View) (file : Path) : Prop :=
  ∀ source, view.read file = .ok source → view.StepsUp [] (settings.target file).segments

/-- Beside a file that can be read every step up leaves a directory. -/
theorem stepsUp_of_beside {view : View} (beside : settings.outDir = none) :
    settings.StepsUp view file := by
  intro source isText
  obtain ⟨outer, name, whole, append⟩ := Path.exists_segments_append file
  have target : (settings.target file).segments = outer ++ [name ++ tsxEnding] := by
    rw [RunSettings.target, beside]
    exact append tsxEnding (by decide)
  rw [target]
  refine View.StepsUp.concat ?_ (isName_append_tsxEnding name)
  cases leads : view.locate file with
  | error error =>
      rw [View.read, leads] at isText
      cases isText
  | ok location =>
      rw [View.locate] at leads
      split at leads
      · cases leads
      · split at leads
        · cases leads
        · rw [whole] at leads
          exact (View.stepsUp_of_pathway leads).of_append

/-- Steps up are a matter of output directories only. -/
theorem stepsUp_of_outDir {view : View}
    (leaves : settings.outDir.isSome → settings.StepsUp view file) :
    settings.StepsUp view file := by
  cases outDir : settings.outDir with
  | none => exact stepsUp_of_beside outDir
  | some directory => exact leaves (by rw [outDir]; rfl)

/-- What writing the conversion of a source comes to. -/
def outcomeOf (settings : RunSettings) (files : FileSystem) (file : Path) (source : Text)
    (device : Device := .reliable) : FileSystem.Outcome :=
  (settings.conversionOf file source).writeTo files (settings.target file)
    (settings.mapTarget file) device

section Restricted

variable {restrictions : Restrictions}

theorem effect_of_error {view : View} {error : FileError}
    (fails : view.readUnder restrictions file = .error error) :
    settings.effect restrictions view file = {} := by
  rw [effect, fails]

theorem effect_of_ok {view : View} {source : Text}
    (isText : view.readUnder restrictions file = .ok source) :
    settings.effect restrictions view file =
      (settings.conversionOf file source).effect restrictions view (settings.target file)
        (settings.mapTarget file) := by
  rw [effect, isText]

theorem performs_outcomeOf {files : FileSystem} {outer : List Text} {name source : Text}
    (outputs : Outputs settings file outer name) (steps : settings.StepsUp files.view file)
    (isText : files.view.readUnder restrictions file = .ok source) :
    FileSystem.Performs files outer (settings.effect restrictions files.view file)
      (settings.outcomeOf files file source (.ofRestrictions restrictions)) := by
  rw [effect_of_ok isText]
  exact Conversion.performs_writeTo outputs.target (isName_append_tsxEnding name) outputs.mapTarget
    Outputs.isName_mapTarget Outputs.names_ne (steps source (View.read_of_readUnder isText))
    restrictions (settings.conversionOf file source)

/-- An effect makes directories above the target only. -/
theorem bottom_effect_isPrefix {files : FileSystem} {outer : List Text} {name : Text}
    (outputs : Outputs settings file outer name) (steps : settings.StepsUp files.view file) :
    (settings.effect restrictions files.view file).bottom <+: Path.locationFrom [] outer := by
  cases isText : files.view.readUnder restrictions file with
  | error error =>
      rw [effect_of_error isText]
      exact List.nil_prefix
  | ok source =>
      have steps := steps source (View.read_of_readUnder isText)
      rw [outputs.target] at steps
      rw [effect_of_ok isText, Conversion.bottom_effect, View.making, outputs.target,
        List.dropLast_concat]
      split
      · exact List.nil_prefix
      · exact FileSystem.way_prefix_locationFrom steps.of_append

/-- An effect makes no directory where a file stands, and writes to no directory. -/
theorem fits_effect {files : FileSystem} (steps : settings.StepsUp files.view file) :
    (settings.effect restrictions files.view file).Fits files.view := by
  have rootFree : ∀ location, location <+: [] → ¬ files.view.HasFile location :=
    fun _ => files.not_hasFile_of_root
  cases isText : files.view.readUnder restrictions file with
  | error error =>
      rw [effect_of_error isText]
      exact ⟨rootFree, nofun⟩
  | ok source =>
      obtain ⟨outer, name, outputs⟩ := exists_outputs settings file
      refine ⟨?_, (performs_outcomeOf outputs steps isText).noDirectory⟩
      rw [effect_of_ok isText, Conversion.bottom_effect, View.making]
      split
      · exact rootFree
      · exact fun location => View.not_hasFile_of_prefix_way rootFree

end Restricted

section Written

variable {files : FileSystem} (writes : settings.emitTsx = false)
include writes

theorem files_convertFile {source : Text} {device : Device}
    (isText : files.read file device = .ok source) :
    (convertFile settings files file device).files =
      (settings.outcomeOf files file source device).files := by
  simp only [convertFile, isText, writes, Bool.false_eq_true, if_false, outcomeOf, conversionOf]
  split <;> rfl

/-- A file does not fail if it can be read and its conversion written. -/
theorem error_convertFile_eq_none_iff {device : Device} :
    (convertFile settings files file device).report.error = none ↔
      ∃ source, files.read file device = .ok source ∧
        (settings.outcomeOf files file source device).error = none := by
  cases isText : files.read file device with
  | error error => simp [convertFile, isText]
  | ok source =>
      simp only [convertFile, isText, writes, Bool.false_eq_true, if_false, outcomeOf, conversionOf]
      split
      · rename_i succeeds
        exact iff_of_true rfl ⟨source, rfl, succeeds⟩
      · rename_i error fails
        refine iff_of_false (Option.some_ne_none _) ?_
        rintro ⟨other, same, succeeds⟩
        cases same
        cases fails.symm.trans succeeds

/-- A report tells what was read and how the writing failed, and nothing else. -/
theorem report_convertFile_congr {others : FileSystem} {device : Device}
    (sameText : files.read file device = others.read file device)
    (sameError : ∀ source, files.read file device = .ok source →
      (settings.outcomeOf files file source device).error =
        (settings.outcomeOf others file source device).error) :
    (convertFile settings files file device).report =
      (convertFile settings others file device).report := by
  cases isText : files.read file device with
  | error error =>
      simp only [convertFile, ← sameText, isText]
  | ok source =>
      have same := sameError source isText
      simp only [outcomeOf, conversionOf] at same
      simp only [convertFile, ← sameText, isText, writes, Bool.false_eq_true, if_false, same]
      split <;> rfl

/-- **A file is converted as its effect says.** -/
theorem convertFile_yields (restrictions : Restrictions)
    (steps : settings.StepsUp files.view file) :
    (settings.effect restrictions files.view file).Yields files.view
      (convertFile settings files file (.ofRestrictions restrictions)).files.view := by
  cases isText : files.view.readUnder restrictions file with
  | error error =>
      rw [effect_of_error isText, convertFile, files.readUnder_eq, isText]
      refine ⟨nofun, fun location atRoot => ?_, fun _ _ _ => rfl⟩
      rw [List.prefix_nil.mp atRoot]
      exact FileSystem.view_nil files
  | ok source =>
      obtain ⟨outer, name, outputs⟩ := exists_outputs settings file
      rw [files_convertFile writes (by rw [files.readUnder_eq, isText])]
      exact (performs_outcomeOf outputs steps isText).yields

end Written

end RunSettings

end ComponentTsx
