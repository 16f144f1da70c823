import ComponentTsx.Proofs.FileSystem.Way

/-!
# Effects

An effect makes the directories down to a location and stores contents in files.
What effects make of a view is told location by location, so the order in which
the effects are named is of no account (`View.Becomes.unique`).  An effect that
lies apart from earlier ones adds to what they make (`View.Becomes.cons`).

An effect fits a view if no file stands where it makes a directory, and no
directory where it stores.  Then directories stay directories, and files stand
elsewhere than where something is stored just where they stood.
-/

namespace ComponentTsx

set_option autoImplicit false

/-- The directories that are made, down to a location, what is stored in files, and a failure. -/
structure Effect where
  bottom : Location := []
  stored : List (Location × Contents) := []
  error : Option FileError := none

namespace Effect

/-- Whether a view is what an effect makes of another one. -/
structure Yields (effect : Effect) (view result : View) : Prop where
  written : ∀ entry ∈ effect.stored, result entry.1 = some (.file entry.2)
  made : ∀ location, location <+: effect.bottom → result location = some .directory
  kept : ∀ location, location ∉ effect.stored.map (·.1) → ¬ location <+: effect.bottom →
    result location = view location

theorem yields_withDirectory (view : View) (bottom : Location) (error : Option FileError) :
    ({ bottom, error } : Effect).Yields view (view.withDirectory bottom) :=
  ⟨nofun, fun _ above => View.withDirectory_of_isPrefix above,
    fun _ _ apart => View.withDirectory_of_not_isPrefix apart⟩

/-- One more file is written. -/
theorem Yields.write {view result : View} {bottom location : Location}
    {stored : List (Location × Contents)} {before : Option FileError}
    (yields : Yields ⟨bottom, stored, before⟩ view result) (apart : ¬ location <+: bottom)
    (new : location ∉ stored.map (·.1)) (contents : Contents) (error : Option FileError) :
    Yields ⟨bottom, stored ++ [(location, contents)], error⟩ view
      (Function.update result location (some (.file contents))) := by
  refine ⟨?_, ?_, ?_⟩
  · intro written isWritten
    rcases List.mem_append.mp isWritten with earlier | last
    · have other : written.1 ≠ location := by
        rintro rfl
        exact new (List.mem_map_of_mem earlier)
      rw [Function.update_of_ne other, yields.written written earlier]
    · rw [List.mem_singleton.mp last, Function.update_self]
  · intro queried above
    have other : queried ≠ location := by
      rintro rfl
      exact apart above
    rw [Function.update_of_ne other, yields.made queried above]
  · intro queried notWritten notMade
    rw [List.map_append, List.mem_append, not_or] at notWritten
    rw [Function.update_of_ne (by simpa using notWritten.2)]
    exact yields.kept queried notWritten.1 notMade

/-- Whether two effects leave each other's files and directories alone. -/
structure Apart (first second : Effect) : Prop where
  stored : ∀ entry ∈ first.stored, ∀ other ∈ second.stored, entry.1 ≠ other.1
  above : ∀ entry ∈ first.stored, ¬ entry.1 <+: second.bottom
  below : ∀ entry ∈ second.stored, ¬ entry.1 <+: first.bottom

/-- Whether an effect makes no directory where a file stands, and writes to no directory. -/
structure Fits (effect : Effect) (view : View) : Prop where
  free : ∀ location, location <+: effect.bottom → ¬ view.HasFile location
  noDirectory : ∀ entry ∈ effect.stored, view entry.1 ≠ some .directory

end Effect

/-- Whether a view is what effects make of another one. -/
structure View.Becomes (view : View) (effects : List Effect) (result : View) : Prop where
  written : ∀ effect ∈ effects, ∀ entry ∈ effect.stored, result entry.1 = some (.file entry.2)
  made : ∀ effect ∈ effects, ∀ location, location <+: effect.bottom →
    result location = some .directory
  kept : ∀ location,
    (∀ effect ∈ effects, location ∉ effect.stored.map (·.1) ∧ ¬ location <+: effect.bottom) →
      result location = view location

namespace View.Becomes

variable {view middle result : View} {effects : List Effect}

theorem nil (view : View) : view.Becomes [] view := ⟨nofun, nofun, fun _ _ => rfl⟩

/-- What effects make depends only on which effects there are. -/
theorem of_mem_iff {others : List Effect} (becomes : view.Becomes effects result)
    (same : ∀ effect, effect ∈ others ↔ effect ∈ effects) : view.Becomes others result :=
  ⟨fun effect member => becomes.written effect ((same effect).mp member),
    fun effect member => becomes.made effect ((same effect).mp member),
    fun location apart => becomes.kept location fun effect member =>
      apart effect ((same effect).mpr member)⟩

/-- **Effects make one view, in whatever order.** -/
theorem unique {other : View} (becomes : view.Becomes effects result)
    (becomesOther : view.Becomes effects other) : result = other := by
  funext location
  by_cases written : ∃ effect ∈ effects, location ∈ effect.stored.map (·.1)
  · obtain ⟨effect, member, isWritten⟩ := written
    obtain ⟨entry, isStored, rfl⟩ := List.mem_map.mp isWritten
    rw [becomes.written effect member entry isStored,
      becomesOther.written effect member entry isStored]
  by_cases made : ∃ effect ∈ effects, location <+: effect.bottom
  · obtain ⟨effect, member, above⟩ := made
    rw [becomes.made effect member location above, becomesOther.made effect member location above]
  · have apart : ∀ effect ∈ effects,
        location ∉ effect.stored.map (·.1) ∧ ¬ location <+: effect.bottom := by
      intro effect member
      exact ⟨fun isWritten => written ⟨effect, member, isWritten⟩,
        fun above => made ⟨effect, member, above⟩⟩
    rw [becomes.kept location apart, becomesOther.kept location apart]

/-- An effect that lies apart from earlier ones adds to what they make. -/
theorem cons {effect : Effect} (before : view.Becomes effects middle)
    (after : effect.Yields middle result) (apart : ∀ other ∈ effects, other.Apart effect) :
    view.Becomes (effect :: effects) result := by
  refine ⟨?_, ?_, ?_⟩
  · intro other member entry isStored
    rcases List.mem_cons.mp member with rfl | member
    · exact after.written entry isStored
    · rw [← before.written other member entry isStored]
      refine after.kept entry.1 (fun isWritten => ?_) ((apart other member).above entry isStored)
      obtain ⟨again, isAgain, same⟩ := List.mem_map.mp isWritten
      exact (apart other member).stored entry isStored again isAgain same.symm
  · intro other member location above
    rcases List.mem_cons.mp member with rfl | member
    · exact after.made location above
    by_cases madeAgain : location <+: effect.bottom
    · exact after.made location madeAgain
    · rw [← before.made other member location above]
      refine after.kept location (fun isWritten => ?_) madeAgain
      obtain ⟨entry, isStored, rfl⟩ := List.mem_map.mp isWritten
      exact (apart other member).below entry isStored above
  · intro location untouched
    obtain ⟨⟨notWritten, notMade⟩, others⟩ := List.forall_mem_cons.mp untouched
    rw [after.kept location notWritten notMade, before.kept location others]

/-! ## Effects that fit -/

theorem directory (becomes : view.Becomes effects result)
    (fits : ∀ effect ∈ effects, effect.Fits view) {location : Location}
    (present : view location = some .directory) : result location = some .directory := by
  by_cases made : ∃ effect ∈ effects, location <+: effect.bottom
  · obtain ⟨effect, member, above⟩ := made
    exact becomes.made effect member location above
  · rw [← present]
    refine becomes.kept location fun effect member => ⟨fun isWritten => ?_, fun above => ?_⟩
    · obtain ⟨entry, isStored, rfl⟩ := List.mem_map.mp isWritten
      exact (fits effect member).noDirectory entry isStored present
    · exact made ⟨effect, member, above⟩

theorem hasFile_iff (becomes : view.Becomes effects result)
    (fits : ∀ effect ∈ effects, effect.Fits view) {location : Location}
    (notWritten : ∀ effect ∈ effects, location ∉ effect.stored.map (·.1)) :
    result.HasFile location ↔ view.HasFile location := by
  by_cases made : ∃ effect ∈ effects, location <+: effect.bottom
  · obtain ⟨effect, member, above⟩ := made
    exact iff_of_false
      (not_hasFile_of_directory (becomes.made effect member location above))
      ((fits effect member).free location above)
  · have same : result location = view location :=
      becomes.kept location fun effect member =>
        ⟨notWritten effect member, fun above => made ⟨effect, member, above⟩⟩
    rw [HasFile, same, HasFile]

end View.Becomes

end ComponentTsx
