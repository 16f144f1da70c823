import ComponentTsx.Proofs.FileSystem.View

/-!
# How far directories can be made

Segments lead on through what is missing as if it were a directory, until a name
is too long or a file stands in the way (`View.way`).  What is on the way is no
file (`not_hasFile_of_prefix_way`), and once there is a directory at the end of
the way and wherever it passed, the segments lead there (`pathway_withDirectory`).

A step up is an exception, since it has to leave a directory: what `a/../b` makes
hangs on whether `a` is there.  So every step up of the segments is asked to leave
a directory that is there already (`View.StepsUp`).
-/

namespace ComponentTsx

set_option autoImplicit false

/-- What lies in a directory does not lead to it. -/
theorem Location.not_concat_isPrefix (outer : Location) (name : Text) :
    ¬ outer ++ [name] <+: outer := fun within => by
  have shorter := within.length_le
  rw [List.length_append, List.length_singleton] at shorter
  omega

/-! ## Limits -/

/-- The path of more segments goes on from the path of the first ones. -/
theorem Path.exists_ofSegments_append (first second : List Text) :
    ∃ more, ofSegments (first ++ second) = ofSegments first ++ more := by
  induction first with
  | nil => exact ⟨ofSegments second, rfl⟩
  | cons segment rest ih =>
      cases rest with
      | nil =>
          cases second with
          | nil => exact ⟨[], (List.append_nil _).symm⟩
          | cons next later =>
              refine ⟨['/'] ++ ofSegments (next :: later), ?_⟩
              simp [ofSegments, List.intercalate_cons_cons]
      | cons next later =>
          obtain ⟨more, longer⟩ := ih
          refine ⟨more, ?_⟩
          simp only [ofSegments, List.cons_append, List.intercalate_cons_cons] at longer ⊢
          rw [longer, List.append_assoc, List.append_assoc, List.append_assoc]

/-- Without steps up segments lead down. -/
theorem Path.prefix_locationFrom {segments : List Text} (noStepUp : ['.', '.'] ∉ segments)
    (start : Location) : start <+: locationFrom start segments := by
  obtain ⟨names, _, leads⟩ := innerComponents_of_notMem noStepUp start
  rw [leads]
  exact List.prefix_append start names

/-- Why a path leads nowhere, whatever exists. -/
def FileSystem.breach? (path : Path) : Option FileError :=
  if path.contains '\x00' then some .nullInPath
  else if pathLimit ≤ path.byteLength then some .nameTooLong
  else none

theorem FileSystem.breach?_ne_notFound (path : Path) : breach? path ≠ some .notFound := by
  unfold breach?
  split
  · exact nofun
  · split <;> exact nofun

theorem FileSystem.byteLength_lt_of_breach? {path : Path} (within : breach? path = none) :
    path.byteLength < pathLimit := by
  unfold breach? at within
  split at within
  · cases within
  · split at within
    · cases within
    · rename_i short
      exact Nat.lt_of_not_le short

/-- What is within the limits is so with less after it. -/
theorem FileSystem.breach?_of_append {path more : Path} (within : breach? (path ++ more) = none) :
    breach? path = none := by
  unfold breach? at within ⊢
  split at within
  · cases within
  · rename_i noNull
    split at within
    · cases within
    · rename_i short
      rw [List.contains_eq_mem, decide_eq_true_eq, List.mem_append, not_or] at noNull
      rw [Text.byteLength_append] at short
      rw [if_neg (by simpa using noNull.1), if_neg (by omega)]

namespace View

theorem locate_eq_of_breach? {view : View} {path : Path} {error : FileError}
    (breach : FileSystem.breach? path = some error) : view.locate path = .error error := by
  unfold FileSystem.breach? at breach
  unfold locate
  split at breach
  · rename_i null
    rw [if_pos null, Option.some.inj breach]
  · rename_i noNull
    rw [if_neg noNull]
    split at breach
    · rename_i long
      rw [if_pos long, Option.some.inj breach]
    · cases breach

theorem locate_eq_pathway {view : View} {path : Path} (within : FileSystem.breach? path = none) :
    view.locate path = view.pathway [] path.segments := by
  unfold FileSystem.breach? at within
  unfold locate
  split at within
  · cases within
  · rename_i noNull
    split at within
    · cases within
    · rename_i short
      rw [if_neg noNull, if_neg short]

/-! ## Ways -/

/--
How far segments lead from a location where missing directories are made, and why not further.
-/
def way (view : View) (start : Location) : List Text → Location × Option FileError
  | [] => (start, none)
  | segment :: rest =>
      if FileSystem.nameLimit < segment.byteLength then (start, some .nameTooLong)
      else
        match view (Path.advance start segment) with
        | some (.file _) =>
            (start, some (if rest.all Path.isVoid then .alreadyExists else .notDirectory))
        | _ => view.way (Path.advance start segment) rest

/-- The view with a directory at a location and on the way to it. -/
def withDirectory (view : View) (bottom : Location) : View := fun location =>
  if location <+: bottom then some .directory else view location

/-- Whether a file stands at a location. -/
def HasFile (view : View) (location : Location) : Prop :=
  ∃ contents, view location = some (.file contents)

/-- Whether every step up in segments leaves a directory that is there. -/
def StepsUp (view : View) (start : Location) (segments : List Text) : Prop :=
  ∀ before after, segments = before ++ ['.', '.'] :: after →
    ∃ location, view.pathway start before = .ok location ∧ view location = some .directory

variable {view : View} {start : Location} {segment : Text} {segments rest : List Text}

theorem way_of_long (long : FileSystem.nameLimit < segment.byteLength) :
    view.way start (segment :: rest) = (start, some .nameTooLong) := by
  rw [way, if_pos long]

theorem way_of_file (short : segment.byteLength ≤ FileSystem.nameLimit)
    (file : view.HasFile (Path.advance start segment)) :
    view.way start (segment :: rest) =
      (start, some (if rest.all Path.isVoid then .alreadyExists else .notDirectory)) := by
  obtain ⟨contents, holds⟩ := file
  rw [way, if_neg (Nat.not_lt_of_le short), holds]

theorem way_of_no_file (short : segment.byteLength ≤ FileSystem.nameLimit)
    (free : ¬ view.HasFile (Path.advance start segment)) :
    view.way start (segment :: rest) = view.way (Path.advance start segment) rest := by
  rw [way, if_neg (Nat.not_lt_of_le short)]
  split
  · rename_i contents holds
    exact absurd ⟨contents, holds⟩ free
  · rfl

theorem not_hasFile_of_directory {location : Location}
    (directory : view location = some .directory) : ¬ view.HasFile location := by
  rintro ⟨contents, holds⟩
  cases directory.symm.trans holds

theorem not_hasFile_of_missing {location : Location} (missing : view location = none) :
    ¬ view.HasFile location := by
  rintro ⟨contents, holds⟩
  cases missing.symm.trans holds

/-- One more segment leads on from where a way ends that nothing stops. -/
theorem way_concat_of_none {bottom : Location} (whole : view.way start segments = (bottom, none))
    (last : Text) : view.way start (segments ++ [last]) = view.way bottom [last] := by
  induction segments generalizing start with
  | nil =>
      cases whole
      rfl
  | cons segment rest ih =>
      rw [List.cons_append]
      rcases Nat.lt_or_ge FileSystem.nameLimit segment.byteLength with long | short
      · rw [way_of_long long] at whole
        cases whole
      by_cases file : view.HasFile (Path.advance start segment)
      · rw [way_of_file short file] at whole
        cases whole
      · rw [way_of_no_file short file] at whole ⊢
        exact ih whole

/-- A way that is stopped stays so; a file that stopped it is then on the way to something. -/
theorem way_concat_of_some {bottom : Location} {error : FileError}
    (stopped : view.way start segments = (bottom, some error)) (last : Text) :
    view.way start (segments ++ [last]) =
      (bottom, some (if error = .alreadyExists ∧ ¬ Path.isVoid last then .notDirectory
        else error)) := by
  induction segments generalizing start with
  | nil => cases stopped
  | cons segment rest ih =>
      rw [List.cons_append]
      rcases Nat.lt_or_ge FileSystem.nameLimit segment.byteLength with long | short
      · rw [way_of_long long] at stopped ⊢
        cases stopped
        rfl
      by_cases file : view.HasFile (Path.advance start segment)
      · rw [way_of_file short file] at stopped ⊢
        cases void : Path.isVoid last <;> cases allVoid : rest.all Path.isVoid <;>
          · rw [allVoid] at stopped
            cases stopped
            simp [void, allVoid]
      · rw [way_of_no_file short file] at stopped ⊢
        exact ih stopped

/-- A way that nothing stops leads where the segments lead. -/
theorem way_eq_of_none (unstopped : (view.way start segments).2 = none) :
    view.way start segments = (Path.locationFrom start segments, none) := by
  induction segments generalizing start with
  | nil => rfl
  | cons segment rest ih =>
      rcases Nat.lt_or_ge FileSystem.nameLimit segment.byteLength with long | short
      · rw [way_of_long long] at unstopped
        cases unstopped
      by_cases file : view.HasFile (Path.advance start segment)
      · rw [way_of_file short file] at unstopped
        cases unstopped
      · rw [way_of_no_file short file] at unstopped ⊢
        exact ih unstopped

/-- What stands in the way as the last thing is a file. -/
theorem hasFile_of_way (stops : (view.way start segments).2 = some .alreadyExists) :
    view.HasFile (Path.locationFrom start segments) := by
  induction segments generalizing start with
  | nil => cases stops
  | cons segment rest ih =>
      rw [Path.locationFrom_cons]
      rcases Nat.lt_or_ge FileSystem.nameLimit segment.byteLength with long | short
      · rw [way_of_long long] at stops
        cases stops
      by_cases file : view.HasFile (Path.advance start segment)
      · rw [way_of_file short file] at stops
        split at stops
        · rename_i void
          rw [Path.locationFrom_of_forall_isVoid (List.all_eq_true.mp void)]
          exact file
        · cases stops
      · rw [way_of_no_file short file] at stops
        exact ih stops

/-- No file is at the end of a way or above it. -/
theorem not_hasFile_of_prefix_way (free : ∀ location, location <+: start → ¬ view.HasFile location)
    {location : Location} (above : location <+: (view.way start segments).1) :
    ¬ view.HasFile location := by
  induction segments generalizing start with
  | nil => exact free location above
  | cons segment rest ih =>
      rcases Nat.lt_or_ge FileSystem.nameLimit segment.byteLength with long | short
      · rw [way_of_long long] at above
        exact free location above
      by_cases file : view.HasFile (Path.advance start segment)
      · rw [way_of_file short file] at above
        exact free location above
      · rw [way_of_no_file short file] at above
        refine ih (fun passed isPassed => ?_) above
        rw [Path.advance] at isPassed file
        split at isPassed
        · exact free passed isPassed
        · rename_i notVoid
          rw [if_neg notVoid] at file
          split at isPassed
          · exact free passed (isPassed.trans (List.dropLast_prefix start))
          · rename_i notUp
            rw [if_neg notUp] at file
            rcases List.prefix_concat_iff.mp isPassed with rfl | before
            · exact file
            · exact free passed before

/-- A way depends only on where files stand among the places that the segments pass. -/
theorem way_congr {other : View}
    (agree : ∀ first second, segments = first ++ second →
      (view.HasFile (Path.locationFrom start first) ↔
        other.HasFile (Path.locationFrom start first))) :
    view.way start segments = other.way start segments := by
  induction segments generalizing start with
  | nil => rfl
  | cons segment rest ih =>
      have here := agree [segment] rest rfl
      have later := ih fun first second whole =>
        agree (segment :: first) second (by rw [whole, List.cons_append])
      rcases Nat.lt_or_ge FileSystem.nameLimit segment.byteLength with long | short
      · rw [way_of_long long, way_of_long long]
      by_cases file : view.HasFile (Path.advance start segment)
      · rw [way_of_file short file, way_of_file short (here.mp file)]
      · rw [way_of_no_file short file, way_of_no_file short (mt here.mpr file), later]

/-! ## Steps up -/

theorem StepsUp.tail (steps : view.StepsUp start (segment :: rest)) :
    view.StepsUp (Path.advance start segment) rest := by
  intro before after whole
  obtain ⟨location, leads, directory⟩ :=
    steps (segment :: before) after (by rw [whole, List.cons_append])
  rw [pathway] at leads
  split at leads
  · cases leads
  · cases leads
  · split at leads
    · cases leads
    · exact ⟨location, leads, directory⟩

theorem StepsUp.of_append {more : List Text} (steps : view.StepsUp start (segments ++ more)) :
    view.StepsUp start segments := by
  intro before after whole
  exact steps before (after ++ more) (by rw [whole, List.append_assoc, List.cons_append])

/-- The last steps up are made from where the segments before them lead. -/
theorem StepsUp.drop {more : List Text} (steps : view.StepsUp start (segments ++ more)) :
    view.StepsUp (Path.locationFrom start segments) more := by
  induction segments generalizing start with
  | nil => exact steps
  | cons segment rest ih =>
      rw [Path.locationFrom_cons]
      exact ih steps.tail

theorem stepsUp_of_notMem (noStepUp : ['.', '.'] ∉ segments) : view.StepsUp start segments := by
  rintro before after rfl
  exact absurd (List.mem_append_right before List.mem_cons_self) noStepUp

/-- A name goes on from steps up without being one. -/
theorem StepsUp.concat (steps : view.StepsUp start segments) {last : Text}
    (named : Path.isName last) : view.StepsUp start (segments ++ [last]) := by
  intro before after whole
  rcases List.eq_nil_or_concat after with rfl | ⟨inner, final, rfl⟩
  · obtain ⟨_, same⟩ := List.append_inj' whole rfl
    rw [(List.cons.inj same).1] at named
    exact absurd named (by decide)
  · rw [List.concat_eq_append, ← List.cons_append, ← List.append_assoc] at whole
    exact steps before inner (List.append_inj' whole rfl).1

/-- Segments that lead somewhere step up from directories. -/
theorem stepsUp_of_pathway {found : Location} (leads : view.pathway start segments = .ok found) :
    view.StepsUp start segments := by
  rintro before after rfl
  rw [pathway_append] at leads
  cases first : view.pathway start before with
  | error error =>
      rw [first] at leads
      cases leads
  | ok passed =>
      rw [first] at leads
      change view.pathway passed (['.', '.'] :: after) = .ok found at leads
      rw [pathway] at leads
      split at leads
      · cases leads
      · cases leads
      · exact ⟨passed, rfl, by assumption⟩

/-- From what is no directory no step up is made. -/
theorem StepsUp.notMem (steps : view.StepsUp start segments)
    (noDirectory : view start ≠ some .directory) : ['.', '.'] ∉ segments := by
  intro member
  obtain ⟨before, after, whole⟩ := List.append_of_mem member
  obtain ⟨location, leads, directory⟩ := steps before after whole
  cases before with
  | nil =>
      cases leads
      exact noDirectory directory
  | cons segment earlier =>
      rw [pathway] at leads
      split at leads
      · cases leads
      · cases leads
      · rename_i isDirectory
        exact noDirectory isDirectory

/-- Beyond what is no directory segments only lead down. -/
theorem StepsUp.prefix_locationFrom (steps : view.StepsUp start segments)
    (noDirectory : view start ≠ some .directory) : start <+: Path.locationFrom start segments :=
  Path.prefix_locationFrom (steps.notMem noDirectory) start

/-- Segments that lead to a directory begin at one. -/
theorem directory_of_pathway {found : Location} (leads : view.pathway start segments = .ok found)
    (directory : view found = some .directory) : view start = some .directory := by
  cases segments with
  | nil =>
      cases leads
      exact directory
  | cons segment rest =>
      rw [pathway] at leads
      split at leads
      · cases leads
      · cases leads
      · assumption

/-- Segments that lead to a directory pass directories only. -/
theorem directory_of_pathway_append {found : Location} {second : List Text}
    (leads : view.pathway start (segments ++ second) = .ok found)
    (directory : view found = some .directory) :
    view (Path.locationFrom start segments) = some .directory := by
  rw [pathway_append] at leads
  cases first : view.pathway start segments with
  | error error =>
      rw [first] at leads
      cases leads
  | ok passed =>
      rw [first] at leads
      rw [← eq_locationFrom_of_pathway first]
      exact directory_of_pathway leads directory

/-- Segments that lead to a directory meet nothing that stops a way. -/
theorem way_of_pathway {found : Location} (leads : view.pathway start segments = .ok found)
    (directory : view found = some .directory) : view.way start segments = (found, none) := by
  induction segments generalizing start with
  | nil =>
      cases leads
      rfl
  | cons segment rest ih =>
      rw [pathway] at leads
      split at leads
      · cases leads
      · cases leads
      · split at leads
        · cases leads
        · rename_i short
          have free := not_hasFile_of_directory (directory_of_pathway leads directory)
          rw [way_of_no_file (Nat.le_of_not_lt short) free]
          exact ih leads

/-- Where there are more directories, segments still lead on. -/
theorem pathway_of_directories {other : View} {found : Location}
    (kept : ∀ location, view location = some .directory → other location = some .directory)
    (leads : view.pathway start segments = .ok found) :
    other.pathway start segments = .ok found := by
  induction segments generalizing start with
  | nil => exact leads
  | cons segment rest ih =>
      rw [pathway] at leads
      split at leads
      · cases leads
      · cases leads
      · rename_i directory
        split at leads
        · cases leads
        · rename_i short
          rw [pathway, kept start directory]
          simp only [if_neg short]
          exact ih leads

/-! ## Directories on the way -/

theorem withDirectory_of_isPrefix {bottom location : Location} (above : location <+: bottom) :
    view.withDirectory bottom location = some .directory := if_pos above

theorem withDirectory_of_not_isPrefix {bottom location : Location} (apart : ¬ location <+: bottom) :
    view.withDirectory bottom location = view location := if_neg apart

theorem withDirectory_of_directory {bottom location : Location}
    (directory : view location = some .directory) :
    view.withDirectory bottom location = some .directory := by
  unfold withDirectory
  split
  · rfl
  · exact directory

theorem update_withDirectory (view : View) (outer : Location) (name : Text) :
    Function.update (view.withDirectory outer) (outer ++ [name]) (some .directory) =
      view.withDirectory (outer ++ [name]) := by
  funext location
  by_cases same : location = outer ++ [name]
  · rw [same, Function.update_self, withDirectory_of_isPrefix List.prefix_rfl]
  · rw [Function.update_of_ne same]
    by_cases above : location <+: outer
    · rw [withDirectory_of_isPrefix above,
        withDirectory_of_isPrefix (above.trans (List.prefix_append outer [name]))]
    · have apart : ¬ location <+: outer ++ [name] := fun within =>
        (List.prefix_concat_iff.mp within).elim same above
      rw [withDirectory_of_not_isPrefix above, withDirectory_of_not_isPrefix apart]

/-- Once the directories of a way are made, the segments lead on. -/
theorem pathway_withDirectory {bottom : Location} (steps : view.StepsUp start segments)
    (whole : view.way start segments = (bottom, none))
    (directory : view.withDirectory bottom start = some .directory) :
    (view.withDirectory bottom).pathway start segments = .ok bottom := by
  induction segments generalizing start with
  | nil =>
      cases whole
      rfl
  | cons segment rest ih =>
      rcases Nat.lt_or_ge FileSystem.nameLimit segment.byteLength with long | short
      · rw [way_of_long long] at whole
        cases whole
      by_cases file : view.HasFile (Path.advance start segment)
      · rw [way_of_file short file] at whole
        cases whole
      · rw [way_of_no_file short file] at whole
        rw [pathway, directory]
        simp only [if_neg (Nat.not_lt_of_le short)]
        refine ih steps.tail whole ?_
        by_cases isDirectory : view (Path.advance start segment) = some .directory
        · exact withDirectory_of_directory isDirectory
        · have leads := way_eq_of_none (congrArg Prod.snd whole)
          rw [whole] at leads
          rw [(Prod.mk.inj leads).1]
          exact withDirectory_of_isPrefix (steps.tail.prefix_locationFrom isDirectory)

end View

end ComponentTsx
