import ComponentTsx.Device
import ComponentTsx.Proofs.FileSystem.Way

/-!
# Making directories and writing files

What comes of making the directories of a path can be told beforehand: they are
there afterwards as far as the way of the path goes, and nothing else has changed
(`makeParents_follows`).  A text is then stored unless something refuses it
(`store_of_leads`).

The directories are made on the reliable device.
-/

namespace ComponentTsx

set_option autoImplicit false

namespace FileSystem

variable {files : FileSystem}

theorem not_hasFile_of_root (files : FileSystem) {location : Location} (atRoot : location <+: []) :
    ¬ files.view.HasFile location := by
  rw [List.prefix_nil.mp atRoot]
  exact View.not_hasFile_of_directory (view_nil files)

theorem withDirectory_eq_self {bottom : Location}
    (directory : files.view bottom = some .directory) :
    files.view.withDirectory bottom = files.view := by
  funext location
  by_cases above : location <+: bottom
  · rw [View.withDirectory_of_isPrefix above]
    obtain ⟨names, rfl⟩ := above
    by_cases empty : names = []
    · rw [empty, List.append_nil] at directory
      exact directory.symm
    · exact (view_of_append empty (by rw [directory]; exact Option.some_ne_none _)).symm
  · exact View.withDirectory_of_not_isPrefix above

/-- Below what is missing everything is missing. -/
theorem view_of_prefix_of_missing {above location : Location} (missing : files.view above = none)
    (below : above <+: location) : files.view location = none := by
  obtain ⟨names, rfl⟩ := below
  by_cases empty : names = []
  · rwa [empty, List.append_nil]
  · by_contra present
    cases missing.symm.trans (view_of_append empty present)

/-- A way ends where the segments lead or above it. -/
theorem way_prefix_locationFrom {start : Location} {segments : List Text}
    (steps : files.view.StepsUp start segments) :
    (files.view.way start segments).1 <+: Path.locationFrom start segments := by
  induction segments generalizing start with
  | nil => exact List.prefix_rfl
  | cons segment rest ih =>
      rcases Nat.lt_or_ge nameLimit segment.byteLength with long | short
      · rw [View.way_of_long long]
        refine Path.prefix_locationFrom (fun member => ?_) start
        rcases List.mem_cons.mp member with rfl | member
        · exact absurd long (by decide)
        · obtain ⟨before, after, whole⟩ := List.append_of_mem member
          obtain ⟨location, leads, _⟩ :=
            steps (segment :: before) after (by rw [whole, List.cons_append])
          rw [View.pathway, if_pos long] at leads
          split at leads <;> cases leads
      by_cases file : files.view.HasFile (Path.advance start segment)
      · rw [View.way_of_file short file]
        have noDirectory := fun present => View.not_hasFile_of_directory present file
        have down : ['.', '.'] ∉ [segment] := fun member => by
          obtain rfl := List.mem_singleton.mp member
          obtain ⟨location, leads, directory⟩ := steps [] rest rfl
          cases leads
          exact noDirectory (view_dropLast_of_directory directory)
        exact (Path.prefix_locationFrom down start).trans
          (steps.tail.prefix_locationFrom noDirectory)
      · rw [View.way_of_no_file short file]
        exact ih steps.tail

/-! ## Making one directory -/

/-- The file system with a directory at a location, unless a file stands there. -/
def ensureAt (files : FileSystem) (location : Location) : Except FileError FileSystem :=
  match files.view location with
  | some .directory => .ok files
  | some (.file _) => .error .alreadyExists
  | none => .ok (files.put location (.directory []))

theorem ensureDirectory_eq (files : FileSystem) (path : Path) :
    files.ensureDirectory path = (files.view.locate path).bind files.ensureAt := by
  simp only [ensureDirectory, makeDirectory, Device.permit_reliable, isDirectory, find?, locate_eq]
  cases files.view.locate path with
  | error error => rfl
  | ok location =>
      cases found : files.node? location with
      | none => simp [Except.map, Except.bind, bind, ensureAt, view, found]
      | some node =>
          cases node <;>
            simp [Except.map, Except.bind, bind, ensureAt, view, found, Node.seen,
              Node.isDirectory]

/-- Segments that are put together to a path within the limits lead as they do alone. -/
theorem ensureDirectory_reverse {reversed : List Text}
    (noSlash : ∀ segment ∈ reversed, '/' ∉ segment) (nonempty : reversed ≠ [])
    (within : breach? (Path.ofSegments reversed.reverse) = none) (files : FileSystem) :
    files.ensureDirectory (Path.ofSegments reversed.reverse) =
      (files.view.pathway [] reversed.reverse).bind files.ensureAt := by
  have split : Path.segments (Path.ofSegments reversed.reverse) = reversed.reverse :=
    Path.segments_ofSegments (fun segment member => noSlash segment (List.mem_reverse.mp member))
      (mt List.reverse_eq_nil_iff.mp nonempty)
  rw [ensureDirectory_eq, View.locate_eq_pathway within, split]

theorem ensureAt_of_directory {location : Location}
    (directory : files.view location = some .directory) : files.ensureAt location = .ok files := by
  rw [ensureAt, directory]

theorem view_put_directory {outer : Location} {name : Text}
    (parent : files.view outer = some .directory) (missing : files.view (outer ++ [name]) = none) :
    (files.put (outer ++ [name]) (.directory [])).view =
      Function.update files.view (outer ++ [name]) (some .directory) := by
  have noDirectory : files.view (outer ++ [name]) ≠ some .directory := by
    rw [missing]
    exact (Option.some_ne_none _).symm
  refine view_put parent noDirectory fun names nonempty => ?_
  cases names with
  | nil => exact absurd rfl nonempty
  | cons first rest => rfl

theorem view_put_file {outer : Location} {name : Text} (contents : Contents)
    (parent : files.view outer = some .directory)
    (free : files.view (outer ++ [name]) ≠ some .directory) :
    (files.put (outer ++ [name]) (.file contents)).view =
      Function.update files.view (outer ++ [name]) (some (.file contents)) :=
  view_put parent free fun _ nonempty => Node.at?_file _ nonempty

/-- How segments that are followed by a name lead on from a directory. -/
inductive Approach (view : View) (start : Location) (segments : List Text) (last : Text) :
    Prop where
  /-- The directory for the name is there. -/
  | arrives (leads : view.pathway start segments = .ok (Path.locationFrom start segments))
      (directory : view (Path.locationFrom start segments) = some .directory)
  /-- A directory on the way is missing. -/
  | misses (stops : view.pathway start (segments ++ [last]) = .error .notFound)
      (missing : view (Path.locationFrom start segments) = none)
  /-- A long name or a file is on the way. -/
  | blocked (error : FileError) (notMissing : error ≠ .notFound)
      (stops : view.pathway start (segments ++ [last]) = .error error)
      (stopsWay : (view.way start (segments ++ [last])).2 = some error)
      (directory : view (view.way start (segments ++ [last])).1 = some .directory)

theorem approach {start : Location} {segments : List Text} {last : Text}
    (directory : files.view start = some .directory) (steps : files.view.StepsUp start segments)
    (named : Path.isName last) : Approach files.view start segments last := by
  induction segments generalizing start with
  | nil => exact .arrives rfl directory
  | cons segment rest ih =>
      have onward : files.view.pathway start (segment :: (rest ++ [last])) =
          if nameLimit < segment.byteLength then .error .nameTooLong
          else files.view.pathway (Path.advance start segment) (rest ++ [last]) := by
        rw [View.pathway, directory]
      rcases Nat.lt_or_ge nameLimit segment.byteLength with long | short
      · have stopsWay : files.view.way start (segment :: (rest ++ [last])) =
            (start, some .nameTooLong) := View.way_of_long long
        refine .blocked .nameTooLong (by decide) ?_ ?_ ?_
        · rw [List.cons_append, onward, if_pos long]
        · rw [List.cons_append, stopsWay]
        · rw [List.cons_append, stopsWay]
          exact directory
      rw [if_neg (Nat.not_lt_of_le short)] at onward
      obtain ⟨next, more, whole⟩ : ∃ next more, rest ++ [last] = next :: more :=
        List.exists_cons_of_ne_nil (by simp)
      cases here : files.view (Path.advance start segment) with
      | none =>
          refine .misses ?_ (view_of_prefix_of_missing here ?_)
          · rw [List.cons_append, onward, whole, View.pathway, here]
          · exact steps.tail.prefix_locationFrom (by rw [here]; exact (Option.some_ne_none _).symm)
      | some seen =>
          cases seen with
          | file contents =>
              have notVoid : (rest ++ [last]).all Path.isVoid = false := by
                simp [Path.not_isVoid_of_isName named]
              have stopsWay : files.view.way start (segment :: (rest ++ [last])) =
                  (start, some .notDirectory) := by
                rw [View.way_of_file short ⟨contents, here⟩, notVoid]
                rfl
              refine .blocked .notDirectory (by decide) ?_ ?_ ?_
              · rw [List.cons_append, onward, whole, View.pathway, here]
              · rw [List.cons_append, stopsWay]
              · rw [List.cons_append, stopsWay]
                exact directory
          | directory =>
              have onWay : files.view.way start (segment :: (rest ++ [last])) =
                  files.view.way (Path.advance start segment) (rest ++ [last]) :=
                View.way_of_no_file short (View.not_hasFile_of_directory here)
              cases ih here steps.tail with
              | arrives leads isDirectory =>
                  refine .arrives ?_ isDirectory
                  rw [View.pathway, directory]
                  simp only [if_neg (Nat.not_lt_of_le short)]
                  exact leads
              | misses stops missing =>
                  exact .misses (by rw [List.cons_append, onward, stops]) missing
              | blocked error notMissing stops stopsWay isDirectory =>
                  refine .blocked error notMissing ?_ ?_ ?_
                  · rw [List.cons_append, onward, stops]
                  · rw [List.cons_append, onWay, stopsWay]
                  · rw [List.cons_append, onWay]
                    exact isDirectory

/-! ## Making all directories -/

/-- A path that breaks a limit is not made, nor anything on the way to it. -/
theorem makeFromLast_of_breach {reversed : List Text} {error : FileError}
    (noSlash : ∀ segment ∈ reversed, '/' ∉ segment)
    (breach : breach? (Path.ofSegments (reversed.dropWhile Path.isVoid).reverse) = some error) :
    files.makeFromLast reversed = ⟨files, some error⟩ := by
  induction reversed with
  | nil => cases breach
  | cons segment outer ih =>
      rw [makeFromLast]
      by_cases void : Path.isVoid segment
      · rw [if_pos void]
        rw [List.dropWhile_cons_of_pos void] at breach
        exact ih (List.forall_mem_cons.mp noSlash).2 breach
      · rw [List.dropWhile_cons_of_neg void] at breach
        have fails : files.ensureDirectory (Path.ofSegments (segment :: outer).reverse) =
            .error error := by
          rw [ensureDirectory_eq, View.locate_eq_of_breach? breach]
          rfl
        have notMissing : error ≠ .notFound := by
          rintro rfl
          exact breach?_ne_notFound _ breach
        rw [if_neg void]
        simp only [fails]

/-- Whether the directories of a way were made, as far as it goes, and nothing else was done. -/
structure Outcome.Follows (outcome : Outcome) (view : View) (way : Location × Option FileError) :
    Prop where
  error : outcome.error = way.2
  files : outcome.files.view = view.withDirectory way.1

theorem way_concat_of_isVoid {segments : List Text} {last : Text} (void : Path.isVoid last) :
    files.view.way [] (segments ++ [last]) = files.view.way [] segments := by
  have free : ¬ files.view.HasFile (files.view.way [] segments).1 :=
    View.not_hasFile_of_prefix_way (fun _ => files.not_hasFile_of_root) List.prefix_rfl
  have short : last.byteLength ≤ nameLimit :=
    Nat.le_of_not_lt (not_nameLimit_lt_of_not_isName (mt Path.not_isVoid_of_isName (by simpa)))
  rcases whole : files.view.way [] segments with ⟨bottom, _ | error⟩
  · rw [whole] at free
    have stays := Path.advance_of_isVoid void bottom
    rw [View.way_concat_of_none whole, View.way_of_no_file short (by rwa [stays]), stays]
    rfl
  · rw [View.way_concat_of_some whole]
    simp [void]

/-- A step up out of a directory makes nothing. -/
theorem makeFromLast_stepUp {outer : List Text}
    (noSlash : ∀ segment ∈ ['.', '.'] :: outer, '/' ∉ segment)
    (steps : files.view.StepsUp [] (['.', '.'] :: outer).reverse)
    (within : breach? (Path.ofSegments (['.', '.'] :: outer).reverse) = none) :
    (files.makeFromLast (['.', '.'] :: outer)).Follows files.view
      (files.view.way [] (['.', '.'] :: outer).reverse) := by
  have whole : (['.', '.'] :: outer).reverse = outer.reverse ++ [['.', '.']] := List.reverse_cons
  obtain ⟨location, leads, directory⟩ := steps outer.reverse [] whole
  have above := view_dropLast_of_directory directory
  have onward : files.view.pathway [] (['.', '.'] :: outer).reverse = .ok location.dropLast := by
    rw [whole, View.pathway_append, leads]
    change files.view.pathway location [['.', '.']] = _
    rw [View.pathway, directory]
    rfl
  have makes : files.ensureDirectory (Path.ofSegments (['.', '.'] :: outer).reverse) =
      .ok files := by
    rw [ensureDirectory_reverse noSlash (List.cons_ne_nil _ _) within, onward]
    exact ensureAt_of_directory above
  have notVoid : ¬ Path.isVoid ['.', '.'] := by decide
  rw [View.way_of_pathway onward above, makeFromLast, if_neg notVoid]
  simp only [makes]
  exact ⟨rfl, (withDirectory_eq_self above).symm⟩

theorem pathway_concat_of_directory {view : View} {start outer : Location} {segments : List Text}
    (leads : view.pathway start segments = .ok outer) (directory : view outer = some .directory)
    (last : Text) :
    view.pathway start (segments ++ [last]) =
      if nameLimit < last.byteLength then .error .nameTooLong
      else .ok (Path.advance outer last) := by
  rw [View.pathway_append, leads]
  change view.pathway outer [last] = _
  rw [View.pathway, directory]
  rfl

/-- Once the directories before a name are made, its own directory is made or fails for good. -/
theorem ensure_name {view : View} {made : FileSystem} {segments : List Text} {outer : Location}
    {last : Text} (named : Path.isName last) (whole : view.way [] segments = (outer, none))
    (leads : made.view.pathway [] segments = .ok outer)
    (isMade : made.view = view.withDirectory outer) :
    (∃ changed, (made.view.pathway [] (segments ++ [last])).bind made.ensureAt = .ok changed ∧
      (⟨changed, none⟩ : Outcome).Follows view (view.way [] (segments ++ [last]))) ∨
    ∃ error, error ≠ .notFound ∧
      (made.view.pathway [] (segments ++ [last])).bind made.ensureAt = .error error ∧
      (⟨made, some error⟩ : Outcome).Follows view (view.way [] (segments ++ [last])) := by
  have directory : made.view outer = some .directory := by
    rw [isMade]
    exact View.withDirectory_of_isPrefix List.prefix_rfl
  have same : made.view (outer ++ [last]) = view (outer ++ [last]) := by
    rw [isMade]
    exact View.withDirectory_of_not_isPrefix (Location.not_concat_isPrefix outer last)
  have advances := Path.advance_of_isName named outer
  rw [View.way_concat_of_none whole, pathway_concat_of_directory leads directory, advances]
  rcases Nat.lt_or_ge nameLimit last.byteLength with long | short
  · rw [View.way_of_long long, if_pos long]
    exact .inr ⟨.nameTooLong, by decide, rfl, rfl, isMade⟩
  rw [if_neg (Nat.not_lt_of_le short)]
  change (∃ changed, made.ensureAt (outer ++ [last]) = .ok changed ∧ _) ∨
    ∃ error, _ ∧ made.ensureAt (outer ++ [last]) = .error error ∧ _
  rw [ensureAt]
  have goesOn (free : ¬ view.HasFile (outer ++ [last])) :
      view.way outer [last] = (outer ++ [last], none) := by
    rw [← advances] at free
    rw [View.way_of_no_file short free, advances]
    rfl
  cases here : made.view (outer ++ [last]) with
  | none =>
      refine .inl ⟨_, rfl, ?_⟩
      rw [goesOn (View.not_hasFile_of_missing (same ▸ here))]
      refine ⟨rfl, ?_⟩
      rw [view_put_directory directory here, isMade, View.update_withDirectory]
  | some seen =>
      cases seen with
      | directory =>
          refine .inl ⟨_, rfl, ?_⟩
          rw [goesOn (View.not_hasFile_of_directory (same ▸ here))]
          refine ⟨rfl, ?_⟩
          rw [← View.update_withDirectory, ← isMade, ← here, Function.update_eq_self]
      | file contents =>
          have file : view.HasFile (Path.advance outer last) :=
            ⟨contents, by rw [advances, ← same, here]⟩
          rw [View.way_of_file short file]
          exact .inr ⟨.alreadyExists, by decide, rfl, rfl, isMade⟩

theorem makeFromLast_name {last : Text} {outer : List Text} (named : Path.isName last)
    (noSlash : ∀ segment ∈ last :: outer, '/' ∉ segment)
    (steps : files.view.StepsUp [] outer.reverse)
    (within : breach? (Path.ofSegments (last :: outer).reverse) = none)
    (follows : (files.makeFromLast outer).Follows files.view (files.view.way [] outer.reverse)) :
    (files.makeFromLast (last :: outer)).Follows files.view
      (files.view.way [] (last :: outer).reverse) := by
  have ensures := ensureDirectory_reverse noSlash (List.cons_ne_nil last outer) within
  rw [makeFromLast, if_neg (Path.not_isVoid_of_isName named)]
  rw [List.reverse_cons] at ensures ⊢
  cases approach (view_nil files) steps named with
  | arrives leads directory =>
      have whole := View.way_of_pathway leads directory
      have isMade := (withDirectory_eq_self directory).symm
      rcases ensure_name named whole leads isMade with
        ⟨changed, makes, result⟩ | ⟨error, notMissing, fails, result⟩
      · rw [← ensures files] at makes
        simp only [makes]
        exact result
      · rw [← ensures files] at fails
        simp only [fails]
        exact result
  | misses stops missing =>
      have fails : files.ensureDirectory (Path.ofSegments (outer.reverse ++ [last])) =
          .error .notFound := by
        rw [ensures, stops]
        rfl
      simp only [fails]
      rcases whole : files.view.way [] outer.reverse with ⟨bottom, _ | error⟩
      · rw [whole] at follows
        have leads :
            (files.makeFromLast outer).files.view.pathway [] outer.reverse = .ok bottom := by
          rw [follows.files]
          exact View.pathway_withDirectory steps whole
            (View.withDirectory_of_directory (view_nil files))
        rw [Outcome.andThen, follows.error]
        simp only [ensures]
        rcases ensure_name named whole leads follows.files with
          ⟨changed, makes, result⟩ | ⟨error, _, fails, result⟩
        · simp only [makes]
          exact result
        · simp only [fails]
          exact result
      · have notFile : error ≠ .alreadyExists := by
          rintro rfl
          exact View.not_hasFile_of_missing missing (View.hasFile_of_way (congrArg Prod.snd whole))
        rw [whole] at follows
        rw [View.way_concat_of_some whole, Outcome.andThen, follows.error]
        simpa [notFile] using follows
  | blocked error notMissing stops stopsWay directory =>
      have fails : files.ensureDirectory (Path.ofSegments (outer.reverse ++ [last])) =
          .error error := by
        rw [ensures, stops]
        rfl
      simp only [fails]
      exact ⟨stopsWay.symm, (withDirectory_eq_self directory).symm⟩

/-- The directories down to where the way ends are made. -/
theorem makeFromLast_follows {reversed : List Text} (noSlash : ∀ segment ∈ reversed, '/' ∉ segment)
    (steps : files.view.StepsUp [] reversed.reverse)
    (within : breach? (Path.ofSegments (reversed.dropWhile Path.isVoid).reverse) = none) :
    (files.makeFromLast reversed).Follows files.view (files.view.way [] reversed.reverse) := by
  induction reversed with
  | nil => exact ⟨rfl, (withDirectory_eq_self (view_nil files)).symm⟩
  | cons segment outer ih =>
      obtain ⟨noSlashHere, noSlashOuter⟩ := List.forall_mem_cons.mp noSlash
      have outerSteps : files.view.StepsUp [] outer.reverse := by
        rw [List.reverse_cons] at steps
        exact steps.of_append
      by_cases void : Path.isVoid segment
      · rw [List.dropWhile_cons_of_pos void] at within
        rw [makeFromLast, if_pos void, List.reverse_cons, way_concat_of_isVoid void]
        exact ih noSlashOuter outerSteps within
      rw [List.dropWhile_cons_of_neg void] at within
      by_cases stepsUp : segment = ['.', '.']
      · subst stepsUp
        exact makeFromLast_stepUp noSlash steps within
      · have named : Path.isName segment := by
          simp [Path.isName, void, stepsUp]
        refine makeFromLast_name named noSlash outerSteps within (ih noSlashOuter outerSteps ?_)
        obtain ⟨more, longer⟩ := Path.exists_ofSegments_append
          (outer.dropWhile Path.isVoid).reverse ((outer.takeWhile Path.isVoid).reverse ++ [segment])
        rw [← List.append_assoc, ← List.reverse_append, List.takeWhile_append_dropWhile,
          ← List.reverse_cons] at longer
        exact breach?_of_append (longer ▸ within)

end FileSystem

/-! ## Files in directories that are made -/

namespace View

/-- How far the directories for the last component of a path can be made, and why not further. -/
def making (view : View) (path : Path) : Location × Option FileError :=
  let outer := path.segments.dropLast
  match FileSystem.breach? (Path.ofSegments (outer.rdropWhile Path.isVoid)) with
  | some error => ([], some error)
  | none => view.way [] outer

/-- Why no text is written to a path, though there is a directory for it. -/
def refusal? (view : View) (path : Path) : Option FileError :=
  match FileSystem.breach? path with
  | some error => some error
  | none =>
      if FileSystem.nameLimit < (path.segments.getLast?.getD []).byteLength then some .nameTooLong
      else if view path.location = some .directory then some .isDirectory
      else none

theorem refusal?_congr {view other : View} {path : Path}
    (same : view path.location = other path.location) :
    view.refusal? path = other.refusal? path := by
  rw [refusal?, refusal?, same]

theorem ne_directory_of_accepted {view : View} {path : Path}
    (accepted : view.refusal? path = none) : view path.location ≠ some .directory := by
  intro directory
  rw [refusal?] at accepted
  split at accepted
  · cases accepted
  · split at accepted
    · cases accepted
    · cases accepted

end View

namespace FileSystem

variable {files : FileSystem} {path : Path} {before : List Text} {last : Text}

/-- The directories for a path are those that the segments before its last one lead to. -/
theorem makeParents_eq (files : FileSystem) (whole : path.segments = before ++ [last])
    (named : Path.isName last) (device : Device) :
    files.makeParents path device = files.makeFromLast before.reverse device := by
  rw [makeParents, whole, List.reverse_append, List.reverse_singleton, List.singleton_append,
    List.dropWhile_cons_of_neg (Path.not_isVoid_of_isName named), List.drop_one, List.tail_cons]

theorem notMem_of_mem_reverse (whole : path.segments = before ++ [last]) :
    ∀ segment ∈ before.reverse, '/' ∉ segment := by
  intro segment member
  have inside : segment ∈ path.segments := by
    rw [whole]
    exact List.mem_append_left _ (List.mem_reverse.mp member)
  exact Path.notMem_of_mem_segments inside

theorem makeParents_follows (whole : path.segments = before ++ [last]) (named : Path.isName last)
    (steps : files.view.StepsUp [] path.segments) :
    (files.makeParents path).Follows files.view (files.view.making path) := by
  have noSlash := notMem_of_mem_reverse whole
  have outer : path.segments.dropLast = before := by rw [whole, List.dropLast_concat]
  rw [whole] at steps
  rw [makeParents_eq files whole named, View.making, outer, List.rdropWhile]
  cases breach : breach? (Path.ofSegments (before.reverse.dropWhile Path.isVoid).reverse) with
  | some error =>
      rw [makeFromLast_of_breach noSlash breach]
      exact ⟨rfl, (withDirectory_eq_self (view_nil files)).symm⟩
  | none =>
      have follows := makeFromLast_follows noSlash
        (by rw [List.reverse_reverse]; exact steps.of_append) breach
      rwa [List.reverse_reverse] at follows

variable {outer : Location}

theorem location_of_pathway (whole : path.segments = before ++ [last]) (named : Path.isName last)
    (leads : files.view.pathway [] before = .ok outer) : path.location = outer ++ [last] := by
  rw [Path.location, whole, Path.locationFrom_append, ← View.eq_locationFrom_of_pathway leads,
    Path.locationFrom_cons, Path.advance_of_isName named, Path.locationFrom_nil]

theorem store_eq (files : FileSystem) (path : Path) (contents : Contents) :
    files.store path contents = (files.view.locate path).bind fun location =>
      if files.view location = some .directory then .error .isDirectory
      else .ok (files.put location (.file contents)) := by
  rw [store, locate_eq]
  cases files.view.locate path with
  | error error => rfl
  | ok location =>
      cases found : files.node? location with
      | none => simp [Except.map, Except.bind, bind, view, found]
      | some node =>
          cases node <;>
            simp [Except.map, Except.bind, bind, view, found, Node.seen, Node.isDirectory]

/-- A text is stored at a path, where there is a directory for it, unless it is refused. -/
theorem store_of_leads (whole : path.segments = before ++ [last]) (named : Path.isName last)
    (leads : files.view.pathway [] before = .ok outer)
    (directory : files.view outer = some .directory) (contents : Contents) :
    (∃ error, files.view.refusal? path = some error ∧ files.store path contents = .error error) ∨
    ∃ changed, files.view.refusal? path = none ∧ files.store path contents = .ok changed ∧
      changed.view = Function.update files.view path.location (some (.file contents)) := by
  have lies := location_of_pathway whole named leads
  have ending : path.segments.getLast?.getD [] = last := by simp [whole]
  rw [store_eq, View.refusal?, ending]
  cases breach : breach? path with
  | some error =>
      rw [View.locate_eq_of_breach? breach]
      exact .inl ⟨error, rfl, rfl⟩
  | none =>
      rw [View.locate_eq_pathway breach, whole, pathway_concat_of_directory leads directory,
        Path.advance_of_isName named, lies]
      by_cases long : nameLimit < last.byteLength
      · simp only [if_pos long]
        exact .inl ⟨_, rfl, rfl⟩
      by_cases isDirectory : files.view (outer ++ [last]) = some .directory
      · simp only [if_neg long, if_pos isDirectory, Except.bind]
        exact .inl ⟨_, rfl, rfl⟩
      · simp only [if_neg long, if_neg isDirectory, Except.bind]
        exact .inr ⟨_, trivial, rfl, view_put_file contents directory isDirectory⟩

end FileSystem

end ComponentTsx
