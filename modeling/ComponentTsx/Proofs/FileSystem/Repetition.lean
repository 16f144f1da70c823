import ComponentTsx.Proofs.FileSystem.Growth

/-!
# Operations that are done again

What was done to a file system can be done again to one that has grown from the
result.  Directories that were made are there, so nothing is made
(`makeFromLast_again`), a text that was written is written, and what failed
fails again.

The failure can be another one, but only where a step up leaves a directory that
was made the first time (`makeParents_error_again`): of `a/../b/c`, with a file at
`b`, the second attempt finds `a` and looks further than the first.

The device has the same restrictions both times, and no others than those on reading
and writing.
-/

namespace ComponentTsx

set_option autoImplicit false

namespace View

variable {view later : View}

/-- Below a directory nothing is missing but the last name. -/
theorem locate_ne_notFound {path : Path} {before : List Text} {last : Text} {outer : Location}
    (whole : path.segments = before ++ [last]) (leads : view.pathway [] before = .ok outer)
    (directory : view outer = some .directory) : view.locate path ≠ .error .notFound := by
  cases breach : FileSystem.breach? path with
  | some error =>
      rw [locate_eq_of_breach? breach]
      rintro same
      cases same
      exact FileSystem.breach?_ne_notFound path breach
  | none =>
      rw [locate_eq_pathway breach, whole, FileSystem.pathway_concat_of_directory leads directory]
      split <;> exact nofun

theorem prefix_way (view : View) {segments : List Text} (noStepUp : ['.', '.'] ∉ segments)
    (start : Location) : start <+: (view.way start segments).1 := by
  induction segments generalizing start with
  | nil => exact List.prefix_rfl
  | cons segment rest ih =>
      obtain ⟨notHere, notLater⟩ := not_or.mp (mt List.mem_cons.mpr noStepUp)
      rcases Nat.lt_or_ge FileSystem.nameLimit segment.byteLength with long | short
      · simp only [way_of_long long, List.prefix_rfl]
      by_cases file : view.HasFile (Path.advance start segment)
      · simp only [way_of_file short file, List.prefix_rfl]
      · rw [way_of_no_file short file]
        have noStep : ['.', '.'] ∉ [segment] := by simpa using notHere
        have down : start <+: Path.advance start segment := Path.prefix_locationFrom noStep start
        exact down.trans (ih notLater _)

/-- Once the directories of a way are made, the way ends where it did, and for the same reason. -/
theorem Keeps.way_eq (keeps : view.Keeps later) {start : Location} {segments : List Text}
    (steps : view.StepsUp start segments)
    (made : ∀ location, location <+: (view.way start segments).1 →
      later location = some .directory) :
    later.way start segments = view.way start segments := by
  induction segments generalizing start with
  | nil => rfl
  | cons segment rest ih =>
      rcases Nat.lt_or_ge FileSystem.nameLimit segment.byteLength with long | short
      · rw [way_of_long long, way_of_long long]
      by_cases file : view.HasFile (Path.advance start segment)
      · rw [way_of_file short file, way_of_file short (keeps.file _ file)]
      · rw [way_of_no_file short file] at made ⊢
        have passed : later (Path.advance start segment) = some .directory := by
          by_cases directory : view (Path.advance start segment) = some .directory
          · exact keeps.directory _ directory
          · exact made _ (prefix_way view (steps.tail.notMem directory) _)
        rw [way_of_no_file short (not_hasFile_of_directory passed)]
        exact ih steps.tail made

end View

namespace FileSystem

variable {files changed later : FileSystem} {path : Path}

/-! ## One directory -/

theorem ensureDirectory_of_directory {location : Location}
    (leads : files.view.locate path = .ok location)
    (directory : files.view location = some .directory) :
    files.ensureDirectory path = .ok files := by
  rw [ensureDirectory_eq, leads]
  exact ensureAt_of_directory directory

/-- A directory that was made, or was there, is found where its path leads. -/
theorem locate_of_ensureDirectory (makes : files.ensureDirectory path = .ok changed) :
    ∃ location, files.view.locate path = .ok location ∧
      changed.view location = some .directory := by
  obtain ⟨location, leads, ⟨directory, rfl⟩ | ⟨outer, name, rfl, parent, missing, rfl⟩⟩ :=
    exists_of_ensureDirectory makes
  · exact ⟨location, leads, directory⟩
  · refine ⟨outer ++ [name], leads, ?_⟩
    rw [view_put_directory parent missing, Function.update_self]

/-- A directory that was made is there. -/
theorem ensureDirectory_again (makes : files.ensureDirectory path = .ok changed)
    (keeps : changed.view.Keeps later.view) : later.ensureDirectory path = .ok later := by
  obtain ⟨location, leads, directory⟩ := locate_of_ensureDirectory makes
  have keepsAll := (keeps_ensureDirectory makes).trans keeps
  exact ensureDirectory_of_directory (keepsAll.locate_eq_ok leads)
    (keeps.directory location directory)

/-- What kept a directory from being made, other than that something is missing, does so later. -/
theorem ensureDirectory_fails_again {error : FileError}
    (fails : files.ensureDirectory path = .error error) (notMissing : error ≠ .notFound)
    (keeps : files.view.Keeps later.view) : later.ensureDirectory path = .error error := by
  rw [ensureDirectory_eq_error_iff] at fails ⊢
  rcases fails with stops | ⟨location, leads, file, same⟩
  · exact .inl (keeps.locate_eq_error stops notMissing)
  · exact .inr ⟨location, keeps.locate_eq_ok leads, keeps.file location file, same⟩

/-! ## All directories of a path -/

section Segments

variable {reversed : List Text} {segment : Text} {outer : List Text}

theorem locate_reverse {view : View} (noSlash : ∀ segment ∈ reversed, '/' ∉ segment)
    (nonempty : reversed ≠ []) {location : Location}
    (leads : view.locate (Path.ofSegments reversed.reverse) = .ok location) :
    breach? (Path.ofSegments reversed.reverse) = none ∧
      view.pathway [] reversed.reverse = .ok location := by
  have split : Path.segments (Path.ofSegments reversed.reverse) = reversed.reverse :=
    Path.segments_ofSegments (fun segment member => noSlash segment (List.mem_reverse.mp member))
      (mt List.reverse_eq_nil_iff.mp nonempty)
  cases breach : breach? (Path.ofSegments reversed.reverse) with
  | some error =>
      rw [View.locate_eq_of_breach? breach] at leads
      cases leads
  | none =>
      rw [View.locate_eq_pathway breach, split] at leads
      exact ⟨rfl, leads⟩

/-- Where a directory was made, or was there, the segments of its path lead. -/
theorem pathway_of_ensureDirectory (noSlash : ∀ segment ∈ reversed, '/' ∉ segment)
    (nonempty : reversed ≠ [])
    (makes : files.ensureDirectory (Path.ofSegments reversed.reverse) = .ok changed) :
    ∃ bottom, changed.view.pathway [] reversed.reverse = .ok bottom ∧
      changed.view bottom = some .directory := by
  obtain ⟨bottom, leads, directory⟩ := locate_of_ensureDirectory makes
  have leadsAfter := (keeps_ensureDirectory makes).locate_eq_ok leads
  exact ⟨bottom, (locate_reverse noSlash nonempty leadsAfter).2, directory⟩

/-- What comes of making a directory with those on the way to it. -/
theorem makeFromLast_cases (files : FileSystem) (notVoid : ¬ Path.isVoid segment)
    (outer : List Text) :
    let path := Path.ofSegments (segment :: outer).reverse
    (∃ changed, files.ensureDirectory path = .ok changed ∧
      files.makeFromLast (segment :: outer) = ⟨changed, none⟩) ∨
    (files.ensureDirectory path = .error .notFound ∧
      files.makeFromLast (segment :: outer) =
        (files.makeFromLast outer).andThen (·.ensureDirectory path)) ∨
    ∃ error, error ≠ .notFound ∧ files.ensureDirectory path = .error error ∧
      files.makeFromLast (segment :: outer) = ⟨files, some error⟩ := by
  intro path
  rw [makeFromLast, if_neg notVoid]
  cases made : files.ensureDirectory path with
  | ok changed => exact .inl ⟨changed, rfl, by simp only [path, made]⟩
  | error error =>
      by_cases missing : error = .notFound
      · subst missing
        exact .inr (.inl ⟨rfl, by simp only [path, made]⟩)
      · exact .inr (.inr ⟨error, missing, rfl, by simp only [path, made]⟩)

/-- Nothing is made where the segments lead to a directory. -/
theorem makeFromLast_of_leads (noSlash : ∀ segment ∈ reversed, '/' ∉ segment)
    (within : breach? (Path.ofSegments (reversed.dropWhile Path.isVoid).reverse) = none)
    {bottom : Location} (leads : files.view.pathway [] reversed.reverse = .ok bottom)
    (directory : files.view bottom = some .directory) :
    files.makeFromLast reversed = ⟨files, none⟩ := by
  induction reversed generalizing bottom with
  | nil => rfl
  | cons segment outer ih =>
      rw [makeFromLast]
      by_cases void : Path.isVoid segment
      · rw [if_pos void]
        rw [List.dropWhile_cons_of_pos void] at within
        rw [List.reverse_cons] at leads
        obtain ⟨above, leadsAbove, isDirectory, _, _⟩ := View.pathway_concat leads
        exact ih (List.forall_mem_cons.mp noSlash).2 within leadsAbove isDirectory
      · rw [List.dropWhile_cons_of_neg void] at within
        have isThere : files.ensureDirectory (Path.ofSegments (segment :: outer).reverse) =
            .ok files := by
          rw [ensureDirectory_reverse noSlash (List.cons_ne_nil segment outer) within, leads]
          exact ensureAt_of_directory directory
        rw [if_neg void]
        simp only [isThere]

/-- Once the directories are made the segments lead to the last of them. -/
theorem makeFromLast_leads (noSlash : ∀ segment ∈ reversed, '/' ∉ segment)
    (succeeds : (files.makeFromLast reversed).error = none) :
    ∃ bottom, (files.makeFromLast reversed).files.view.pathway [] reversed.reverse = .ok bottom ∧
      (files.makeFromLast reversed).files.view bottom = some .directory := by
  induction reversed with
  | nil => exact ⟨[], rfl, view_nil files⟩
  | cons segment outer ih =>
      by_cases void : Path.isVoid segment
      · rw [makeFromLast, if_pos void] at succeeds ⊢
        obtain ⟨bottom, leads, directory⟩ := ih (List.forall_mem_cons.mp noSlash).2 succeeds
        have short : ¬ nameLimit < segment.byteLength :=
          not_nameLimit_lt_of_not_isName (mt Path.not_isVoid_of_isName (not_not.mpr void))
        refine ⟨bottom, ?_, directory⟩
        rw [List.reverse_cons, pathway_concat_of_directory leads directory, if_neg short,
          Path.advance_of_isVoid void]
      have nonempty := List.cons_ne_nil segment outer
      rcases makeFromLast_cases files void outer with
        ⟨changed, makes, result⟩ | ⟨_, result⟩ | ⟨error, _, _, result⟩
      · rw [result]
        exact pathway_of_ensureDirectory noSlash nonempty makes
      · rcases Outcome.andThen_cases (files.makeFromLast outer) _ with
          ⟨error, failed, same⟩ | ⟨_, ⟨changed, makes, same⟩ | ⟨error, _, same⟩⟩
        · rw [result, same, failed] at succeeds
          cases succeeds
        · rw [result, same]
          exact pathway_of_ensureDirectory noSlash nonempty makes
        · rw [result, same] at succeeds
          cases succeeds
      · rw [result] at succeeds
        cases succeeds

/-- Where the directories before the last name are made, its own is not missing. -/
theorem ensureDirectory_ne_notFound {bottom : Location}
    (noSlash : ∀ text ∈ segment :: outer, '/' ∉ text)
    (leads : files.view.pathway [] outer.reverse = .ok bottom)
    (directory : files.view bottom = some .directory) :
    files.ensureDirectory (Path.ofSegments (segment :: outer).reverse) ≠ .error .notFound := by
  have whole : Path.segments (Path.ofSegments (segment :: outer).reverse) =
      outer.reverse ++ [segment] := by
    rw [Path.segments_ofSegments
      (fun text member => noSlash text (List.mem_reverse.mp member)) (by simp),
      List.reverse_cons]
  intro missing
  rcases ensureDirectory_eq_error_iff.mp missing with stops | ⟨_, _, _, same⟩
  · exact View.locate_ne_notFound whole leads directory stops
  · cases same

theorem breach?_of_cons (within : breach? (Path.ofSegments (segment :: outer).reverse) = none) :
    breach? (Path.ofSegments (outer.dropWhile Path.isVoid).reverse) = none := by
  obtain ⟨more, longer⟩ := Path.exists_ofSegments_append
    (outer.dropWhile Path.isVoid).reverse ((outer.takeWhile Path.isVoid).reverse ++ [segment])
  rw [← List.append_assoc, ← List.reverse_append, List.takeWhile_append_dropWhile,
    ← List.reverse_cons] at longer
  exact breach?_of_append (longer ▸ within)

/-- What keeps the directories before a name from being made keeps its own from being made. -/
theorem makeFromLast_cons_of_fails {error : FileError}
    (noSlash : ∀ text ∈ segment :: outer, '/' ∉ text) (notVoid : ¬ Path.isVoid segment)
    (fails : files.makeFromLast outer = ⟨files, some error⟩) :
    ∃ other, files.makeFromLast (segment :: outer) = ⟨files, some other⟩ := by
  rcases makeFromLast_cases files notVoid outer with
    ⟨changed, makes, _⟩ | ⟨_, result⟩ | ⟨other, _, _, result⟩
  · obtain ⟨location, leads, _⟩ := locate_of_ensureDirectory makes
    obtain ⟨within, leads⟩ := locate_reverse noSlash (List.cons_ne_nil segment outer) leads
    rw [List.reverse_cons] at leads
    obtain ⟨above, leadsAbove, directory, _, _⟩ := View.pathway_concat leads
    have succeeds := makeFromLast_of_leads (List.forall_mem_cons.mp noSlash).2
      (breach?_of_cons within) leadsAbove directory
    cases fails.symm.trans succeeds
  · rw [fails] at result
    exact ⟨error, result⟩
  · exact ⟨other, result⟩

/--
**Directories that are made again are there, or what kept them from being made still does.**
Nothing is made the second time.
-/
theorem makeFromLast_again (noSlash : ∀ segment ∈ reversed, '/' ∉ segment)
    (keeps : (files.makeFromLast reversed).files.view.Keeps later.view) :
    ∃ error, later.makeFromLast reversed = ⟨later, error⟩ ∧
      (error = none ↔ (files.makeFromLast reversed).error = none) := by
  induction reversed with
  | nil => exact ⟨none, rfl, Iff.rfl⟩
  | cons segment outer ih =>
      have noSlashOuter := (List.forall_mem_cons.mp noSlash).2
      by_cases void : Path.isVoid segment
      · rw [makeFromLast, if_pos void] at keeps ⊢
        rw [makeFromLast, if_pos void]
        exact ih noSlashOuter keeps
      have isThere {changed : FileSystem} (keeps : changed.view.Keeps later.view)
          {earlier : FileSystem}
          (makes : earlier.ensureDirectory (Path.ofSegments (segment :: outer).reverse) =
            .ok changed) : later.makeFromLast (segment :: outer) = ⟨later, none⟩ := by
        rw [makeFromLast, if_neg void]
        simp only [ensureDirectory_again makes keeps]
      have stillFails {earlier : FileSystem} {error : FileError}
          (keeps : earlier.view.Keeps later.view) (notMissing : error ≠ .notFound)
          (fails : earlier.ensureDirectory (Path.ofSegments (segment :: outer).reverse) =
            .error error) : later.makeFromLast (segment :: outer) = ⟨later, some error⟩ := by
        rw [makeFromLast, if_neg void]
        simp only [ensureDirectory_fails_again fails notMissing keeps]
      rcases makeFromLast_cases files void outer with
        ⟨changed, makes, result⟩ | ⟨_, result⟩ | ⟨error, notMissing, fails, result⟩
      · rw [result] at keeps ⊢
        exact ⟨none, isThere keeps makes, Iff.rfl⟩
      · rcases Outcome.andThen_cases (files.makeFromLast outer) _ with
          ⟨error, failed, same⟩ | ⟨succeeds, ⟨changed, makes, same⟩ | ⟨error, fails, same⟩⟩
        · -- The directories before the name were not all made, and will not be.
          rw [result, same] at keeps ⊢
          obtain ⟨error, again, noError⟩ := ih noSlashOuter keeps
          rw [failed] at noError ⊢
          obtain ⟨error, rfl⟩ := Option.ne_none_iff_exists'.mp
            (mt noError.mp (Option.some_ne_none _))
          obtain ⟨other, result⟩ := makeFromLast_cons_of_fails noSlash void again
          exact ⟨some other, result, by simp⟩
        · rw [result, same] at keeps ⊢
          exact ⟨none, isThere keeps makes, Iff.rfl⟩
        · rw [result, same] at keeps ⊢
          obtain ⟨bottom, leads, directory⟩ := makeFromLast_leads noSlashOuter succeeds
          have notMissing : error ≠ .notFound := by
            rintro rfl
            exact ensureDirectory_ne_notFound noSlash leads directory fails
          exact ⟨some error, stillFails keeps notMissing fails, by simp⟩
      · rw [result] at keeps ⊢
        exact ⟨some error, stillFails keeps notMissing fails, by simp⟩

end Segments

/-! ## The directories for a path -/

section Parents

variable {before : List Text} {last : Text}

/-- The directories for a path are made again as they were. -/
theorem makeParents_again (whole : path.segments = before ++ [last]) (named : Path.isName last)
    (keeps : (files.makeParents path).files.view.Keeps later.view) :
    ∃ error, later.makeParents path = ⟨later, error⟩ ∧
      (error = none ↔ (files.makeParents path).error = none) := by
  rw [makeParents_eq files whole named] at keeps ⊢
  rw [makeParents_eq later whole named]
  exact makeFromLast_again (notMem_of_mem_reverse whole) keeps

/-- Once the directories for a path are made the segments before its last one lead there. -/
theorem makeParents_leads (whole : path.segments = before ++ [last]) (named : Path.isName last)
    (succeeds : (files.makeParents path).error = none) :
    ∃ outer, (files.makeParents path).files.view.pathway [] before = .ok outer ∧
      (files.makeParents path).files.view outer = some .directory := by
  rw [makeParents_eq files whole named] at succeeds ⊢
  obtain ⟨outer, leads, directory⟩ := makeFromLast_leads (notMem_of_mem_reverse whole) succeeds
  rw [List.reverse_reverse] at leads
  exact ⟨outer, leads, directory⟩

/-- If every step up leaves a directory that was there, the second failure is the first one. -/
theorem makeParents_error_again (whole : path.segments = before ++ [last])
    (named : Path.isName last) (steps : files.view.StepsUp [] path.segments)
    (keeps : (files.makeParents path).files.view.Keeps later.view) :
    (later.makeParents path).error = (files.makeParents path).error := by
  have keepsAll := (keeps_makeParents files path).trans keeps
  have follows := makeParents_follows whole named steps
  have followsAgain := makeParents_follows whole named (keepsAll.stepsUp steps)
  rw [follows.error, followsAgain.error]
  rw [follows.files, View.making, whole, List.dropLast_concat] at keeps
  rw [View.making, View.making, whole, List.dropLast_concat]
  cases breach : breach? (Path.ofSegments (before.rdropWhile Path.isVoid)) with
  | some error => rfl
  | none =>
      rw [breach] at keeps
      rw [whole] at steps
      have sameWay := keepsAll.way_eq steps.of_append fun location above =>
        keeps.directory location (View.withDirectory_of_isPrefix above)
      simp only [sameWay]

end Parents

/-! ## One text -/

section Contents

variable {contents : Contents} {error : FileError}

/-- What was stored can be stored again. -/
theorem exists_store_again (stores : files.store path contents = .ok changed)
    (keeps : changed.view.Keeps later.view) :
    ∃ changedAgain, later.store path contents = .ok changedAgain := by
  have keepsAll := (keeps_store stores).trans keeps
  have isStored := congrFun (view_of_store stores) path.location
  rw [Function.update_self] at isStored
  have free : later.view path.location ≠ some .directory := fun directory =>
    View.not_hasFile_of_directory directory (keeps.file _ ⟨_, isStored⟩)
  rw [store_eq] at stores ⊢
  cases leads : files.view.locate path with
  | error error =>
      rw [leads] at stores
      cases stores
  | ok location =>
      rw [← View.eq_location_of_locate leads] at free
      rw [keepsAll.locate_eq_ok leads]
      exact ⟨_, if_neg free⟩

/-- What was refused, other than because something is missing, is refused later. -/
theorem store_fails_again (fails : files.store path contents = .error error)
    (notMissing : error ≠ .notFound) (keeps : files.view.Keeps later.view) :
    later.store path contents = .error error := by
  rw [store_eq_error_iff] at fails ⊢
  rcases fails with stops | ⟨location, leads, directory, same⟩
  · exact .inl (keeps.locate_eq_error stops notMissing)
  · exact .inr ⟨location, keeps.locate_eq_ok leads, keeps.directory location directory, same⟩

theorem store_ne_notFound {before : List Text} {last : Text} {outer : Location}
    (whole : path.segments = before ++ [last]) (leads : files.view.pathway [] before = .ok outer)
    (directory : files.view outer = some .directory) :
    files.store path contents ≠ .error .notFound := by
  intro missing
  rcases store_eq_error_iff.mp missing with stops | ⟨_, _, _, same⟩
  · exact View.locate_ne_notFound whole leads directory stops
  · cases same

end Contents

end FileSystem

/-! ## What is done again -/

/--
Whether a second change repeats a first one: at each location it leaves what it finds, and the first
one made a directory there at most, or there is then the file that the first one left.
-/
def View.Repeats (view next again nextAgain : View) : Prop :=
  ∀ location, nextAgain location = again location ∧ view.SameOrMade next location ∨
    next.HasFile location ∧ nextAgain location = next location

namespace View.Repeats

variable {view middle next again middleAgain nextAgain : View}

theorem trans (first : view.Repeats middle again middleAgain)
    (second : middle.Repeats next middleAgain nextAgain) : view.Repeats next again nextAgain := by
  intro location
  rcases second location with ⟨left, madeOnly⟩ | file
  · rcases first location with ⟨leftBefore, madeBefore⟩ | ⟨⟨contents, holds⟩, same⟩
    · exact .inl ⟨left.trans leftBefore, madeBefore.trans madeOnly⟩
    · rcases madeOnly with stays | ⟨missing, _⟩
      · refine .inr ⟨⟨contents, stays.trans holds⟩, ?_⟩
        rw [left, same, stays]
      · cases missing.symm.trans holds
  · exact .inr file

/-- What is repeated at once makes no difference. -/
theorem eq (repeats : view.Repeats next next nextAgain) : nextAgain = next := by
  funext location
  rcases repeats location with ⟨left, _⟩ | ⟨_, same⟩
  · exact left
  · exact same

end View.Repeats

namespace FileSystem

/--
Whether an outcome is another one done again, with a reason for the second failure to be the first.
-/
structure Outcome.IsAgain (lasting : Prop) (files later : FileSystem) (first second : Outcome) :
    Prop where
  repeats : files.view.Repeats first.files.view later.view second.files.view
  keeps : later.view.Keeps second.files.view
  fails : second.error = none ↔ first.error = none
  error : lasting → second.error = first.error

variable {files later : FileSystem} {path : Path} {before : List Text} {last : Text}

theorem isAgain_makeParents (whole : path.segments = before ++ [last]) (named : Path.isName last)
    (keeps : (files.makeParents path).files.view.Keeps later.view) :
    Outcome.IsAgain (files.view.StepsUp [] path.segments) files later (files.makeParents path)
      (later.makeParents path) := by
  obtain ⟨error, again, fails⟩ := makeParents_again whole named keeps
  have made := sameOrMade_makeParents files path .reliable
  refine ⟨fun location => .inl ⟨by rw [again], made location⟩, ?_, by rw [again, fails],
    fun steps => makeParents_error_again whole named steps keeps⟩
  rw [again]
  exact .refl _

/-- Contents that are stored once more. -/
theorem Outcome.IsAgain.store {lasting : Prop} {first second : Outcome}
    (isAgain : Outcome.IsAgain lasting files later first second) {contents : Contents}
    {error : Option FileError} {changed : FileSystem}
    (stores : first.files.store path contents = .ok changed)
    (keeps : changed.view.Keeps later.view) :
    ∃ changedAgain, second.files.store path contents = .ok changedAgain ∧
      Outcome.IsAgain lasting files later ⟨changed, error⟩ ⟨changedAgain, error⟩ := by
  obtain ⟨changedAgain, storesAgain⟩ := exists_store_again stores (keeps.trans isAgain.keeps)
  refine ⟨changedAgain, storesAgain, isAgain.repeats.trans fun location => ?_,
    isAgain.keeps.trans (keeps_store storesAgain), Iff.rfl, fun _ => rfl⟩
  rw [view_of_store stores, view_of_store storesAgain]
  by_cases isPlace : location = path.location
  · rw [isPlace, Function.update_self, Function.update_self]
    exact .inr ⟨⟨_, Function.update_self ..⟩, rfl⟩
  · rw [Function.update_of_ne isPlace]
    exact .inl ⟨rfl, .inl (Function.update_of_ne isPlace ..)⟩

/-- A text that is written once more under the same restrictions, where there is a directory. -/
theorem Outcome.IsAgain.andWrite {lasting : Prop} {first second : Outcome}
    {restrictions : Restrictions} (isAgain : Outcome.IsAgain lasting files later first second)
    {text : Text}
    (found : first.error = none → ∀ contents, first.files.store path contents ≠ .error .notFound)
    (keeps : (first.andWrite path text (.ofRestrictions restrictions)).files.view.Keeps
      later.view) :
    Outcome.IsAgain lasting files later
      (first.andWrite path text (.ofRestrictions restrictions))
      (second.andWrite path text (.ofRestrictions restrictions)) := by
  unfold Outcome.andWrite at keeps ⊢
  cases failed : first.error with
  | some error =>
      obtain ⟨other, failedAgain⟩ := Option.ne_none_iff_exists'.mp
        (mt isAgain.fails.mp (by rw [failed]; exact Option.some_ne_none error))
      simp only [failedAgain]
      exact isAgain
  | none =>
      have failsAlike (error : FileError) : Outcome.IsAgain lasting files later
          ⟨first.files, some error⟩ ⟨second.files, some error⟩ :=
        ⟨isAgain.repeats, isAgain.keeps, by simp, fun _ => rfl⟩
      rw [failed] at keeps
      dsimp only at keeps
      simp only [isAgain.fails.mpr failed]
      cases permitted : restrictions.write? path with
      | some fault =>
          rw [write_of_withheld permitted, write_of_withheld permitted]
          exact failsAlike (.device fault)
      | none =>
          cases stores : first.files.store path (restrictions.accepted path text).1 with
          | ok changed =>
              rw [write_of_stores permitted stores] at keeps ⊢
              obtain ⟨changedAgain, storesAgain, again⟩ := isAgain.store stores keeps
              rw [write_of_stores permitted storesAgain]
              exact again
          | error error =>
              rw [write_of_refuses permitted stores] at keeps ⊢
              have notMissing : error ≠ .notFound := by
                rintro rfl
                exact found failed _ stores
              have failsAgain :=
                store_fails_again stores notMissing (keeps.trans isAgain.keeps)
              rw [write_of_refuses permitted failsAgain]
              exact failsAlike error

end FileSystem

end ComponentTsx
