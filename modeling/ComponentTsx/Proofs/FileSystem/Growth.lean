import ComponentTsx.Proofs.FileSystem.Faults
import Mathlib.Logic.Relation

/-!
# How a file system grows

A file system changes in steps of two kinds: a directory is made where nothing
was, or a file is written where there is no directory (`FileSystem.Step`).  All
that a run does is made of such steps, so directories stay directories and files
stay files (`Grows.keeps`), and apart from the places of the texts there are at
most new directories (`Grows.sameOrMade`).

Nothing is asked here of the device, nor of the paths that are written to.  Their
steps up may leave directories that the steps before have made.
-/

namespace ComponentTsx

set_option autoImplicit false

/-! ## What stays as it is -/

namespace View

variable {view middle later : View}

/-- Whether directories stay directories, and files stay files. -/
structure Keeps (view later : View) : Prop where
  directory : ∀ location, view location = some .directory → later location = some .directory
  file : ∀ location, view.HasFile location → later.HasFile location

theorem Keeps.refl (view : View) : view.Keeps view := ⟨fun _ => id, fun _ => id⟩

theorem Keeps.trans (first : view.Keeps middle)
    (second : middle.Keeps later) : view.Keeps later :=
  ⟨fun location present => second.directory location (first.directory location present),
    fun location present => second.file location (first.file location present)⟩

/-- What stops segments, other than that something is missing, stops them later. -/
theorem Keeps.pathway_eq_error (keeps : view.Keeps later) {start : Location}
    {segments : List Text} {error : FileError} (stops : view.pathway start segments = .error error)
    (notMissing : error ≠ .notFound) : later.pathway start segments = .error error := by
  induction segments generalizing start with
  | nil => cases stops
  | cons segment rest ih =>
      rw [pathway] at stops ⊢
      cases here : view start with
      | none =>
          rw [here] at stops
          cases stops
          exact absurd rfl notMissing
      | some seen =>
          rw [here] at stops
          cases seen with
          | file contents =>
              obtain ⟨other, holds⟩ := keeps.file start ⟨contents, here⟩
              rw [holds]
              exact stops
          | directory =>
              rw [keeps.directory start here]
              dsimp only at stops ⊢
              split at stops
              · rename_i long
                rw [if_pos long, stops]
              · rename_i short
                rw [if_neg short]
                exact ih stops

theorem Keeps.locate_eq_error (keeps : view.Keeps later) {path : Path} {error : FileError}
    (stops : view.locate path = .error error) (notMissing : error ≠ .notFound) :
    later.locate path = .error error := by
  cases breach : FileSystem.breach? path with
  | some other =>
      rw [locate_eq_of_breach? breach] at stops ⊢
      exact stops
  | none =>
      rw [locate_eq_pathway breach] at stops ⊢
      exact keeps.pathway_eq_error stops notMissing

theorem Keeps.locate_eq_ok (keeps : view.Keeps later) {path : Path} {location : Location}
    (leads : view.locate path = .ok location) : later.locate path = .ok location := by
  cases breach : FileSystem.breach? path with
  | some other =>
      rw [locate_eq_of_breach? breach] at leads
      cases leads
  | none =>
      rw [locate_eq_pathway breach] at leads ⊢
      exact pathway_of_directories keeps.directory leads

/-- Steps up that leave directories do so later. -/
theorem Keeps.stepsUp (keeps : view.Keeps later) {start : Location} {segments : List Text}
    (steps : view.StepsUp start segments) : later.StepsUp start segments := by
  intro before after whole
  obtain ⟨location, leads, directory⟩ := steps before after whole
  exact ⟨location, pathway_of_directories keeps.directory leads, keeps.directory _ directory⟩

/-- What is a directory later was one if it was there. -/
theorem Keeps.directory_of_present (keeps : view.Keeps later) {location : Location}
    (present : view location ≠ none)
    (directory : later location = some .directory) : view location = some .directory := by
  obtain ⟨seen, holds⟩ := Option.ne_none_iff_exists'.mp present
  cases seen with
  | directory => exact holds
  | file contents =>
      exact absurd (keeps.file location ⟨contents, holds⟩) (not_hasFile_of_directory directory)

/-- Whether at a location there is what was there, or a directory where nothing was. -/
def SameOrMade (view later : View) (location : Location) : Prop :=
  later location = view location ∨ view location = none ∧ later location = some .directory

theorem SameOrMade.trans {location : Location}
    (first : view.SameOrMade middle location) (second : middle.SameOrMade later location) :
    view.SameOrMade later location := by
  rcases first with same | ⟨missing, made⟩
  · rcases second with sameAgain | ⟨missing, made⟩
    · exact .inl (sameAgain.trans same)
    · exact .inr ⟨same ▸ missing, made⟩
  · rcases second with same | ⟨stillMissing, _⟩
    · exact .inr ⟨missing, same.trans made⟩
    · cases stillMissing.symm.trans made

/-- Where a directory could be made there is no text. -/
theorem SameOrMade.eq_of_file {location : Location} {contents : Contents}
    (same : view.SameOrMade later location) (file : later location = some (.file contents)) :
    view location = some (.file contents) := by
  rcases same with same | ⟨_, made⟩
  · exact same.symm.trans file
  · cases file.symm.trans made

/-- What a file that is not written to holds is what it held. -/
theorem SameOrMade.file {location : Location} {contents : Contents}
    (same : view.SameOrMade later location) (holds : view location = some (.file contents)) :
    later location = some (.file contents) := by
  rcases same with same | ⟨missing, _⟩
  · exact same.trans holds
  · cases missing.symm.trans holds

/-- A part of a text stays where no file is written. -/
theorem HoldsPart.stays {location : Location} {text : Text} (part : view.HoldsPart location text)
    (same : view.SameOrMade later location) : later.HoldsPart location text := by
  obtain ⟨contents, holds, isPart⟩ := part
  exact ⟨contents, same.file holds, isPart⟩

theorem keeps_update_directory {location : Location} (missing : view location = none) :
    view.Keeps (Function.update view location (some .directory)) := by
  have other {queried : Location} (present : view queried ≠ none) : queried ≠ location := by
    rintro rfl
    exact present missing
  refine ⟨fun queried directory => ?_, fun queried file => ?_⟩
  · rwa [Function.update_of_ne (other (by rw [directory]; exact Option.some_ne_none _))]
  · obtain ⟨contents, holds⟩ := file
    refine ⟨contents, ?_⟩
    rwa [Function.update_of_ne (other (by rw [holds]; exact Option.some_ne_none _))]

theorem keeps_update_file {location : Location} (contents : Contents)
    (free : view location ≠ some .directory) :
    view.Keeps (Function.update view location (some (.file contents))) := by
  refine ⟨fun queried directory => ?_, fun queried file => ?_⟩
  · have other : queried ≠ location := by
      rintro rfl
      exact free directory
    rwa [Function.update_of_ne other]
  · by_cases same : queried = location
    · exact ⟨contents, by rw [same, Function.update_self]⟩
    · obtain ⟨earlier, holds⟩ := file
      exact ⟨earlier, by rwa [Function.update_of_ne same]⟩

end View

/-! ## Steps -/

namespace FileSystem

/-- What changes a file system, where files are written at some places only. -/
inductive Step (places : Location → Prop) (files : FileSystem) : FileSystem → Prop where
  | make {outer : Location} {name : Text} (parent : files.view outer = some .directory)
      (missing : files.view (outer ++ [name]) = none) :
      Step places files (files.put (outer ++ [name]) (.directory []))
  | store {outer : Location} {name : Text} (contents : Contents)
      (parent : files.view outer = some .directory)
      (free : files.view (outer ++ [name]) ≠ some .directory) (place : places (outer ++ [name])) :
      Step places files (files.put (outer ++ [name]) (.file contents))

/-- Whether a file system comes from another one by some steps. -/
abbrev Grows (places : Location → Prop) : FileSystem → FileSystem → Prop :=
  Relation.ReflTransGen (Step places)

variable {files later : FileSystem} {places : Location → Prop}

theorem Step.keeps (step : Step places files later) : files.view.Keeps later.view := by
  cases step with
  | make parent missing =>
      rw [view_put_directory parent missing]
      exact View.keeps_update_directory missing
  | store contents parent free place =>
      rw [view_put_file contents parent free]
      exact View.keeps_update_file _ free

theorem Step.sameOrMade (step : Step places files later) {location : Location}
    (elsewhere : ¬ places location) : files.view.SameOrMade later.view location := by
  cases step with
  | @make outer name parent missing =>
      rw [view_put_directory parent missing]
      by_cases same : location = outer ++ [name]
      · rw [same]
        exact .inr ⟨missing, Function.update_self ..⟩
      · exact .inl (Function.update_of_ne same ..)
  | store contents parent free place =>
      rw [view_put_file contents parent free]
      refine .inl (Function.update_of_ne ?_ ..)
      rintro rfl
      exact elsewhere place

theorem grows_of_imp {wider : Location → Prop}
    (within : ∀ location, places location → wider location) (grows : Grows places files later) :
    Grows wider files later := by
  refine Relation.ReflTransGen.mono (fun _ _ step => ?_) _ _ grows
  cases step with
  | make parent missing => exact .make parent missing
  | store contents parent free place => exact .store contents parent free (within _ place)

/-- **Directories stay directories, and files stay files.** -/
theorem Grows.keeps (grows : Grows places files later) : files.view.Keeps later.view := by
  induction grows with
  | refl => exact .refl _
  | tail _ step ih => exact ih.trans step.keeps

/-- **Where no file is written there is at most a new directory.** -/
theorem Grows.sameOrMade (grows : Grows places files later) {location : Location}
    (elsewhere : ¬ places location) : files.view.SameOrMade later.view location := by
  induction grows with
  | refl => exact .inl rfl
  | tail _ step ih => exact ih.trans (step.sameOrMade elsewhere)

/-! ## Operations -/

variable {path : Path} {device : Device}

/-- What is no directory lies in one. -/
theorem exists_concat_of_locate {location : Location}
    (leads : files.view.locate path = .ok location)
    (noDirectory : files.view location ≠ some .directory) :
    ∃ outer name, location = outer ++ [name] ∧ files.view outer = some .directory := by
  obtain ⟨before, last, whole, _⟩ := Path.exists_segments_append path
  have leads : files.view.pathway [] (before ++ [last]) = .ok location := by
    unfold View.locate at leads
    split at leads
    · cases leads
    · split at leads
      · cases leads
      · rwa [whole] at leads
  obtain ⟨outer, _, directory, _, rfl⟩ := View.pathway_concat leads
  refine ⟨outer, last, ?_, directory⟩
  rw [Path.advance] at noDirectory ⊢
  split at noDirectory
  · exact absurd directory noDirectory
  · split at noDirectory
    · exact absurd (view_dropLast_of_directory directory) noDirectory
    · rename_i notVoid notUp
      rw [if_neg notVoid, if_neg notUp]

/-- Where something was there, and segments lead there later, they led there. -/
theorem pathway_of_later (keeps : files.view.Keeps later.view) {segments : List Text}
    (steps : files.view.StepsUp [] segments) {location : Location}
    (leads : later.view.pathway [] segments = .ok location)
    (present : files.view location ≠ none) : files.view.pathway [] segments = .ok location := by
  induction segments using List.reverseRecOn generalizing location with
  | nil => exact leads
  | append_singleton before last ih =>
      obtain ⟨outer, leadsOuter, directory, short, rfl⟩ := View.pathway_concat leads
      have onward (isDirectory : files.view outer = some .directory) :
          files.view.pathway [] (before ++ [last]) = .ok (Path.advance outer last) := by
        have leadsBefore := ih steps.of_append leadsOuter
          (by rw [isDirectory]; exact Option.some_ne_none _)
        rw [pathway_concat_of_directory leadsBefore isDirectory,
          if_neg (Nat.not_lt_of_le short)]
      apply onward
      rw [Path.advance] at present
      split at present
      · exact keeps.directory_of_present present directory
      · split at present
        · rename_i stepsUp
          obtain ⟨location, leadsBefore, isDirectory⟩ := steps before [] (by rw [stepsUp])
          rwa [View.eq_locationFrom_of_pathway leadsOuter,
            ← View.eq_locationFrom_of_pathway leadsBefore]
        · exact view_of_append (List.cons_ne_nil last []) present

/-- What making a directory comes to: it was there, or it is made where nothing was. -/
theorem exists_of_ensureDirectory {changed : FileSystem}
    (makes : files.ensureDirectory path = .ok changed) :
    ∃ location, files.view.locate path = .ok location ∧
      (files.view location = some .directory ∧ changed = files ∨
      ∃ outer name, location = outer ++ [name] ∧ files.view outer = some .directory ∧
        files.view (outer ++ [name]) = none ∧
        changed = files.put (outer ++ [name]) (.directory [])) := by
  rw [ensureDirectory_eq] at makes
  cases leads : files.view.locate path with
  | error error =>
      rw [leads] at makes
      cases makes
  | ok location =>
      rw [leads] at makes
      change files.ensureAt location = .ok changed at makes
      refine ⟨location, rfl, ?_⟩
      rw [ensureAt] at makes
      split at makes
      · rename_i directory
        cases makes
        exact .inl ⟨directory, rfl⟩
      · cases makes
      · rename_i missing
        have noDirectory : files.view location ≠ some .directory := by
          rw [missing]
          exact (Option.some_ne_none _).symm
        obtain ⟨outer, name, rfl, parent⟩ := exists_concat_of_locate leads noDirectory
        cases makes
        exact .inr ⟨outer, name, rfl, parent, missing, rfl⟩

/-- A directory is not made where its path does not lead, or where there is a file. -/
theorem ensureDirectory_eq_error_iff {error : FileError} :
    files.ensureDirectory path = .error error ↔ files.view.locate path = .error error ∨
      ∃ location, files.view.locate path = .ok location ∧ files.view.HasFile location ∧
        error = .alreadyExists := by
  rw [ensureDirectory_eq]
  cases leads : files.view.locate path with
  | error other => simp [Except.bind]
  | ok location =>
      simp only [Except.bind, ensureAt]
      cases here : files.view location with
      | none => simp [View.HasFile, here]
      | some seen => cases seen <;> simp [View.HasFile, here, eq_comm]

theorem grows_ensureDirectory {changed : FileSystem}
    (makes : files.ensureDirectory path device = .ok changed) : Grows places files changed := by
  obtain ⟨location, _, ⟨_, rfl⟩ | ⟨outer, name, _, parent, missing, rfl⟩⟩ :=
    exists_of_ensureDirectory (ensureDirectory_of_device makes)
  · exact .refl
  · exact .single (.make parent missing)

/-- What storing contents comes to when it is done. -/
theorem exists_of_store {changed : FileSystem} {contents : Contents}
    (stores : files.store path contents = .ok changed) :
    ∃ outer name, path.location = outer ++ [name] ∧ files.view outer = some .directory ∧
      files.view (outer ++ [name]) ≠ some .directory ∧
      changed = files.put (outer ++ [name]) (.file contents) := by
  rw [store_eq] at stores
  cases leads : files.view.locate path with
  | error error =>
      rw [leads] at stores
      cases stores
  | ok location =>
      rw [leads] at stores
      simp only [Except.bind] at stores
      split at stores
      · cases stores
      · rename_i free
        obtain ⟨outer, name, rfl, parent⟩ := exists_concat_of_locate leads free
        cases stores
        exact ⟨outer, name, (View.eq_location_of_locate leads).symm, parent, free, rfl⟩

/-- Nothing is stored where a path does not lead, or where there is a directory. -/
theorem store_eq_error_iff {contents : Contents} {error : FileError} :
    files.store path contents = .error error ↔ files.view.locate path = .error error ∨
      ∃ location, files.view.locate path = .ok location ∧
        files.view location = some .directory ∧ error = .isDirectory := by
  rw [store_eq]
  cases leads : files.view.locate path with
  | error other => simp [Except.bind]
  | ok location =>
      by_cases directory : files.view location = some .directory
      · simp [Except.bind, directory, eq_comm]
      · simp [Except.bind, directory]

/-- What is stored sets its place, and nothing else. -/
theorem view_of_store {changed : FileSystem} {contents : Contents}
    (stores : files.store path contents = .ok changed) :
    changed.view = Function.update files.view path.location (some (.file contents)) := by
  obtain ⟨outer, name, lies, parent, free, rfl⟩ := exists_of_store stores
  rw [lies, view_put_file contents parent free]

theorem grows_store {changed : FileSystem} {contents : Contents} (place : places path.location)
    (stores : files.store path contents = .ok changed) : Grows places files changed := by
  obtain ⟨outer, name, lies, parent, free, rfl⟩ := exists_of_store stores
  rw [lies] at place
  exact .single (.store contents parent free place)

/-- What comes of one more operation: it is left undone, it is done, or it fails. -/
theorem Outcome.andThen_cases (outcome : Outcome)
    (operation : FileSystem → Except FileError FileSystem) :
    (∃ error, outcome.error = some error ∧ outcome.andThen operation = outcome) ∨
    outcome.error = none ∧
      ((∃ changed, operation outcome.files = .ok changed ∧
        outcome.andThen operation = ⟨changed, none⟩) ∨
      ∃ error, operation outcome.files = .error error ∧
        outcome.andThen operation = ⟨outcome.files, some error⟩) := by
  rw [andThen]
  cases failed : outcome.error with
  | some error => exact .inl ⟨error, rfl, rfl⟩
  | none =>
      cases done : operation outcome.files with
      | ok changed => exact .inr ⟨rfl, .inl ⟨changed, rfl, rfl⟩⟩
      | error error => exact .inr ⟨rfl, .inr ⟨error, rfl, rfl⟩⟩

/-- One more operation makes the file system grow if it does so by itself. -/
theorem Outcome.grows_andThen {outcome : Outcome}
    {operation : FileSystem → Except FileError FileSystem}
    (grows : Grows places files outcome.files)
    (onward : ∀ changed, operation outcome.files = .ok changed →
      Grows places outcome.files changed) :
    Grows places files (outcome.andThen operation).files := by
  rw [andThen]
  split
  · exact grows
  · split
    · rename_i changed makes
      exact grows.trans (onward changed makes)
    · exact grows

theorem grows_makeFromLast (files : FileSystem) (reversed : List Text) (device : Device) :
    Grows places files (files.makeFromLast reversed device).files := by
  induction reversed with
  | nil => exact .refl
  | cons segment outer ih =>
      rw [makeFromLast]
      split
      · exact ih
      · dsimp only
        split
        · rename_i changed makes
          exact grows_ensureDirectory makes
        · exact Outcome.grows_andThen ih fun changed makes => grows_ensureDirectory makes
        · exact .refl

theorem grows_makeParents (files : FileSystem) (path : Path) (device : Device) :
    Grows places files (files.makeParents path device).files := grows_makeFromLast files _ device

/-- Writing makes the file system grow, also if it is broken off. -/
theorem grows_write (place : places path.location) (files : FileSystem) (text : Text)
    (device : Device) : Grows places files (files.write path text device).files := by
  rcases files.write_cases path text device with
    ⟨error, same⟩ | ⟨changed, stores, same⟩ | ⟨_, changed, _, _, _, stores, same⟩
  · rw [same]
  · rw [same]
    exact grows_store place stores
  · rw [same]
    exact grows_store place stores

theorem Outcome.grows_andWrite {outcome : Outcome} (place : places path.location)
    (grows : Grows places files outcome.files) (text : Text) (device : Device) :
    Grows places files (outcome.andWrite path text device).files := by
  rcases outcome.andWrite_cases path text device with ⟨_, _, same⟩ | ⟨_, same⟩ <;> rw [same]
  · exact grows
  · exact grows.trans (grows_write place outcome.files text device)

/-- The directories for a path are made where nothing was. -/
theorem sameOrMade_makeParents (files : FileSystem) (path : Path) (device : Device)
    (location : Location) :
    files.view.SameOrMade (files.makeParents path device).files.view location := by
  have grows : Grows (fun _ => False) files (files.makeParents path device).files :=
    grows_makeParents files path device
  exact grows.sameOrMade id

theorem keeps_ensureDirectory {changed : FileSystem}
    (makes : files.ensureDirectory path = .ok changed) : files.view.Keeps changed.view := by
  have grows : Grows (fun _ => False) files changed := grows_ensureDirectory makes
  exact grows.keeps

theorem keeps_makeParents (files : FileSystem) (path : Path) :
    files.view.Keeps (files.makeParents path).files.view := by
  have grows : Grows (fun _ => False) files (files.makeParents path).files :=
    grows_makeParents files path .reliable
  exact grows.keeps

theorem keeps_store {changed : FileSystem} {contents : Contents}
    (stores : files.store path contents = .ok changed) : files.view.Keeps changed.view := by
  have grows : Grows (fun _ => True) files changed := grows_store trivial stores
  exact grows.keeps

theorem Outcome.keeps_andWrite (outcome : Outcome) (path : Path) (text : Text)
    (device : Device) :
    outcome.files.view.Keeps (outcome.andWrite path text device).files.view := by
  have grows : Grows (fun _ => True) outcome.files (outcome.andWrite path text device).files :=
    grows_andWrite trivial .refl text device
  exact grows.keeps

/-! ## Where directories are made -/

theorem view_of_ensureDirectory {changed : FileSystem} {location : Location}
    (makes : files.ensureDirectory path device = .ok changed) (apart : location ≠ path.location) :
    changed.view location = files.view location := by
  obtain ⟨found, leads, ⟨_, rfl⟩ | ⟨outer, name, lies, parent, missing, rfl⟩⟩ :=
    exists_of_ensureDirectory (ensureDirectory_of_device makes)
  · rfl
  · rw [← View.eq_location_of_locate leads, lies] at apart
    rw [view_put_directory parent missing, Function.update_of_ne apart]

/-- Directories are made only where some of the segments lead. -/
theorem view_makeFromLast {reversed : List Text} (noSlash : ∀ segment ∈ reversed, '/' ∉ segment)
    {location : Location}
    (apart : ∀ inner, inner <:+ reversed → location ≠ Path.locationFrom [] inner.reverse)
    (device : Device) :
    (files.makeFromLast reversed device).files.view location = files.view location := by
  induction reversed with
  | nil => rfl
  | cons segment outer ih =>
      have made := ih (List.forall_mem_cons.mp noSlash).2 fun inner ends =>
        apart inner (ends.trans (List.suffix_cons segment outer))
      have here : location ≠ Path.location (Path.ofSegments (segment :: outer).reverse) := by
        rw [Path.location, Path.segments_ofSegments
          (fun text member => noSlash text (List.mem_reverse.mp member)) (by simp)]
        exact apart _ List.suffix_rfl
      rw [makeFromLast]
      split
      · exact made
      · dsimp only
        split
        · rename_i changed makes
          exact view_of_ensureDirectory makes here
        · rcases Outcome.andThen_cases (files.makeFromLast outer device)
            (·.ensureDirectory (Path.ofSegments (segment :: outer).reverse) device) with
              ⟨_, _, same⟩ | ⟨_, ⟨changed, makes, same⟩ | ⟨_, _, same⟩⟩ <;> rw [same]
          · exact made
          · exact (view_of_ensureDirectory makes here).trans made
          · exact made
        · rfl

/-- **No directory is made beside the last one**, if every step up leaves a directory. -/
theorem view_makeParents {before : List Text} {last : Text}
    (whole : path.segments = before ++ [last]) (named : Path.isName last)
    (steps : files.view.StepsUp [] path.segments) (name : Text) (device : Device) :
    let place := Path.locationFrom [] before ++ [name]
    (files.makeParents path device).files.view place = files.view place := by
  intro place
  have grows : Grows (fun _ => False) files (files.makeParents path device).files :=
    grows_makeParents files path device
  by_cases directory : files.view place = some .directory
  · rw [directory, grows.keeps.directory place directory]
  rw [makeParents_eq files whole named]
  refine view_makeFromLast (notMem_of_mem_reverse whole) (fun inner ends same => ?_) device
  obtain ⟨more, split⟩ := ends
  have split : before = inner.reverse ++ more.reverse := by
    rw [← List.reverse_append, split, List.reverse_reverse]
  rw [whole, split, List.append_assoc] at steps
  -- Beyond the place the segments only lead down, and the place lies below where they lead.
  have below := steps.drop.of_append.prefix_locationFrom (by rwa [← same])
  rw [← Path.locationFrom_append, ← split, ← same] at below
  exact Location.not_concat_isPrefix _ name below

end FileSystem

end ComponentTsx
