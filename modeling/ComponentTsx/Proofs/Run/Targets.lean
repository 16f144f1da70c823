import ComponentTsx.Proofs.Discovery.Found
import ComponentTsx.Run

/-!
# Where the code of components goes

Beside their components, the outputs of different files are different files.
Under an output directory the output of a file of the workspace has the place
that the file has in the workspace, and the output of any other file lies in the
output directory itself, by its name alone (`Mirrored`).  So two outputs meet
exactly if both lie there and have one name (`location_target_eq_iff`).

That is said of files of the workspace whose paths do not lead out of it by
steps up, and of paths that name different files: a file that is named twice, once
by a path with a step up, is converted twice.
-/

namespace ComponentTsx.RunSettings

set_option autoImplicit false

/-- What is appended to the name of a component. -/
def tsxEnding : Text := ".tsx".toList

/-- Whether the path of a file in the workspace never leads out of the workspace. -/
def staysInside (settings : RunSettings) (file : Path) : Bool :=
  let relative := Path.relativeTo settings.workspace file
  relative.isAbsolute || Path.staysBelow 0 relative.segments

/-- Whether a file lies directly in the workspace, or outside it. -/
def isFlat (settings : RunSettings) (file : Path) : Bool :=
  let relative := Path.relativeTo settings.workspace file
  relative.isAbsolute || relative.location.length = 1

/-! ## Endings -/

/-- A long enough ending makes a name of everything. -/
theorem isName_append {ending : Text} (long : 2 < ending.length) (name : Text) :
    Path.isName (name ++ ending) := by
  have longer : 2 < (name ++ ending).length := by
    rw [List.length_append]
    omega
  have other {text : Text} (short : text.length ≤ 2) : name ++ ending ≠ text := by
    rintro rfl
    exact absurd longer (Nat.not_lt_of_le short)
  have notEmpty : name ++ ending ≠ [] := other (by decide)
  rw [Path.isName, Path.isVoid, Bool.and_eq_true, Bool.not_eq_true', Bool.or_eq_false_iff,
    decide_eq_true_eq, decide_eq_false_iff_not, List.isEmpty_eq_false_iff]
  exact ⟨⟨notEmpty, other (by decide)⟩, other (by decide)⟩

theorem isName_append_tsxEnding (name : Text) : Path.isName (name ++ tsxEnding) :=
  isName_append (by decide) name

/-- The ending changes the name that a path ends with. -/
theorem location_append_tsxEnding {path : Path} {before : List Text} {last : Text}
    (whole : path.segments = before ++ [last]) :
    Path.location (path ++ tsxEnding) = Path.locationFrom [] before ++ [last ++ tsxEnding] := by
  rw [Path.location, Path.segments_append_of_eq whole (by decide), Path.locationFrom_append,
    Path.locationFrom_cons, Path.advance_of_isName (isName_append_tsxEnding last),
    Path.locationFrom_nil]

theorem location_join_tsxEnding (directory : Path) {path : Path} (relative : ¬ path.isAbsolute)
    {inner : List Text} {last : Text} (whole : path.segments = inner ++ [last]) :
    Path.location (Path.join directory path ++ tsxEnding) =
      Path.locationFrom directory.location inner ++ [last ++ tsxEnding] := by
  obtain ⟨before, joined, same⟩ := Path.exists_locationFrom_join directory relative
  rw [whole, ← List.append_assoc] at joined
  rw [location_append_tsxEnding joined, Path.locationFrom_append, same, Path.location]

/-! ## Names of files -/

theorem fileName?_of_isName {path : Path} (absolute : path.isAbsolute) {before : List Text}
    {last : Text} (whole : path.segments = before ++ [last]) (named : Path.isName last) :
    path.fileName? = some last := by
  have notVoid := Path.not_isVoid_of_isName named
  cases before with
  | nil =>
      obtain ⟨rest, begins, _⟩ := Path.isAbsolute_iff.mp absolute
      rw [whole] at begins
      exact absurd ((List.cons.inj begins).1 ▸ rfl) notVoid
  | cons first middle =>
      have stepDown : Path.stepOf last = .name last := by
        rw [Path.isName, Bool.and_eq_true, decide_eq_true_eq] at named
        exact if_neg named.2
      have inner : Path.innerComponents (middle ++ [last]) =
          Path.innerComponents middle ++ [.name last] := by
        simp [Path.innerComponents, List.filter_append, notVoid, stepDown]
      rw [Path.fileName?, Path.components_of_isAbsolute absolute, whole, List.cons_append,
        List.tail_cons, inner, ← List.cons_append, List.getLast?_concat]

theorem location_of_isName {path : Path} {before : List Text} {last : Text}
    (whole : path.segments = before ++ [last]) (named : Path.isName last) :
    path.location = Path.locationFrom [] before ++ [last] := by
  rw [Path.location, whole, Path.locationFrom_append, Path.locationFrom_cons,
    Path.advance_of_isName named, Path.locationFrom_nil]

/-! ## Outputs under a directory -/

section Settings

variable {settings : RunSettings} {file : Path}

/-- Where a file lies, and the directories below the output directory and the name it has there. -/
inductive Mirrored (settings : RunSettings) (file : Path) : Location → Text → Prop where
  | outside {name : Text} (absolute : (Path.relativeTo settings.workspace file).isAbsolute)
      (named : Path.isName name) (isName : file.fileName? = some name) :
      Mirrored settings file [] name
  /-- The workspace is a file itself. -/
  | workspace (relative : Path.relativeTo settings.workspace file = [])
      (same : file.location = settings.workspace.location) : Mirrored settings file [] []
  | inside {names : Location} {name : Text}
      (relative : ¬ (Path.relativeTo settings.workspace file).isAbsolute)
      (leads : (Path.relativeTo settings.workspace file).location = names ++ [name])
      (lies : file.location = settings.workspace.location ++ (names ++ [name]))
      (named : Path.isName name) (isName : file.fileName? = some name) :
      Mirrored settings file names name

theorem exists_mirrored {files : FileSystem} (found : IsFound files file)
    (absolute : settings.workspace.isAbsolute) {directory : Path}
    (outDir : settings.outDir = some directory) (stays : settings.staysInside file) :
    ∃ names name, Mirrored settings file names name ∧
      (settings.target file).location =
        directory.location ++ (names ++ [name ++ tsxEnding]) := by
  obtain ⟨before, last, whole, named⟩ := found.ends
  have isName := fileName?_of_isName found.absolute whole named
  have noSlash : '/' ∉ last := Path.notMem_of_mem_segments (by rw [whole]; simp)
  simp only [target, outDir]
  cases stripped : Path.strip? settings.workspace file with
  | none =>
      have outside : Path.relativeTo settings.workspace file = file := by
        rw [Path.relativeTo, stripped, Option.getD_none]
      have relative : ¬ Path.isAbsolute last := fun isAbsolute => by
        rw [Path.isAbsolute, decide_eq_true_eq] at isAbsolute
        exact noSlash (List.mem_of_mem_head? isAbsolute)
      have single : Path.segments last = [] ++ [last] := Path.segments_of_notMem noSlash
      refine ⟨[], last, .outside (by rw [outside]; exact found.absolute) named isName, ?_⟩
      rw [outside, if_pos found.absolute, isName, Option.getD_some]
      exact location_join_tsxEnding directory relative single
  | some rest =>
      have inside : Path.relativeTo settings.workspace file = rest := by
        rw [Path.relativeTo, stripped, Option.getD_some]
      rcases Path.strip?_cases absolute whole named stripped with
        ⟨rfl, same⟩ | ⟨relative, inner, segments, lies⟩
      · have relative : ¬ Path.isAbsolute [] := Bool.false_ne_true
        have single : Path.segments [] = [] ++ [[]] := rfl
        refine ⟨[], [], .workspace inside same, ?_⟩
        rw [inside, if_neg relative]
        exact location_join_tsxEnding directory relative single
      · rw [staysInside, inside, Bool.or_eq_true, or_iff_right relative, segments] at stays
        have innerStays : Path.staysBelow (List.length ([] : Location)) inner :=
          Path.staysBelow_of_append stays
        have below (start : Location) : Path.locationFrom start inner =
            start ++ Path.locationFrom [] inner := by
          have leads := Path.locationFrom_of_staysBelow innerStays start
          rwa [List.append_nil] at leads
        refine ⟨Path.locationFrom [] inner, last,
          .inside (inside ▸ relative) ?_ ?_ named isName, ?_⟩
        · rw [inside, location_of_isName segments named]
        · rw [lies, Path.locationFrom_append, below, Path.locationFrom_cons,
            Path.advance_of_isName named, Path.locationFrom_nil, List.append_assoc]
        · rw [inside, if_neg relative]
          refine (location_join_tsxEnding directory relative segments).trans ?_
          rw [below, List.append_assoc]

/-- What a file has in common with its output, whichever case it is. -/
theorem Mirrored.isFlat_iff {names : Location} {name : Text}
    (mirrored : Mirrored settings file names name) :
    settings.isFlat file = true ↔ names = [] ∧ name ≠ [] := by
  rw [isFlat, Bool.or_eq_true, decide_eq_true_eq]
  cases mirrored with
  | outside absolute named _ =>
      refine iff_of_true (.inl absolute) ⟨rfl, ?_⟩
      rintro rfl
      exact Path.not_isVoid_of_isName named rfl
  | workspace relative _ =>
      rw [relative]
      exact iff_of_false (by decide) fun flat => flat.2 rfl
  | inside relative leads _ named _ =>
      rw [or_iff_right relative, leads, List.length_append, List.length_singleton,
        Nat.add_eq_right, List.length_eq_zero_iff]
      refine (and_iff_left ?_).symm
      rintro rfl
      exact Path.not_isVoid_of_isName named rfl

theorem Mirrored.fileName?_eq {names : Location} {name : Text}
    (mirrored : Mirrored settings file names name) (notEmpty : name ≠ []) :
    file.fileName? = some name := by
  cases mirrored with
  | outside _ _ isName => exact isName
  | workspace _ _ => exact absurd rfl notEmpty
  | inside _ _ _ _ isName => exact isName

/-- Files with one place under the output directory are one file, unless they lie there directly. -/
theorem Mirrored.isFlat_of_same {other : Path} {names : Location} {name : Text}
    (mirrored : Mirrored settings file names name) (same : Mirrored settings other names name)
    (apart : file.location ≠ other.location) : settings.isFlat file := by
  rw [mirrored.isFlat_iff]
  cases mirrored with
  | outside _ named _ =>
      refine ⟨rfl, ?_⟩
      rintro rfl
      exact Path.not_isVoid_of_isName named rfl
  | workspace _ lies =>
      cases same with
      | outside _ named _ => exact absurd rfl (Path.not_isVoid_of_isName named)
      | workspace _ otherLies => exact absurd (lies.trans otherLies.symm) apart
      | inside _ _ _ named _ => exact absurd rfl (Path.not_isVoid_of_isName named)
  | inside _ _ lies named _ =>
      cases same with
      | outside _ _ _ =>
          refine ⟨rfl, ?_⟩
          rintro rfl
          exact Path.not_isVoid_of_isName named rfl
      | workspace _ _ => exact absurd rfl (Path.not_isVoid_of_isName named)
      | inside _ _ otherLies _ _ => exact absurd (lies.trans otherLies.symm) apart

end Settings

/--
**Outputs meet only in the output directory itself.**  No file is collected twice by paths without
steps up.  Two files have one output exactly if there is an output directory, their names are the
same, and each lies outside the workspace or directly in it.
-/
theorem location_target_eq_iff {files : FileSystem} (sound : files.isSound)
    {criteria : Discovery.Criteria} (absolute : criteria.workspace.isAbsolute)
    {paths found : List Path} (collected : Discovery.collect files criteria paths = .ok found)
    {settings : RunSettings} (same : settings.workspace = criteria.workspace) :
    (found.Pairwise fun first second =>
      ['.', '.'] ∉ first.segments → ['.', '.'] ∉ second.segments →
        first.location ≠ second.location) ∧
    ∀ first ∈ found, ∀ second ∈ found, first.location ≠ second.location →
      (settings.outDir.isSome → settings.staysInside first ∧ settings.staysInside second) →
      ((settings.target first).location = (settings.target second).location ↔
        settings.outDir.isSome ∧ first.fileName? = second.fileName? ∧
          settings.isFlat first ∧ settings.isFlat second) := by
  obtain ⟨isFound, apart⟩ := Discovery.isFound_of_collect sound absolute collected
  constructor
  · refine apart.imp_of_mem fun isFirst isSecond different down otherDown meet => different ?_
    exact Path.components_eq_of_location_eq (isFound _ isFirst).absolute
      (isFound _ isSecond).absolute down otherDown meet
  · intro first isFirst second isSecond different stays
    cases outDir : settings.outDir with
    | none =>
        have beside {file : Path} (isFile : IsFound files file) : ∃ before last,
            file.location = before ++ [last] ∧
              (settings.target file).location = before ++ [last ++ tsxEnding] := by
          obtain ⟨before, last, whole, named⟩ := isFile.ends
          refine ⟨_, last, location_of_isName whole named, ?_⟩
          simp only [target, outDir]
          exact location_append_tsxEnding whole
        obtain ⟨before, last, lies, goes⟩ := beside (isFound first isFirst)
        obtain ⟨other, name, otherLies, otherGoes⟩ := beside (isFound second isSecond)
        refine iff_of_false (fun meet => different ?_) fun flat => Bool.false_ne_true flat.1
        rw [goes, otherGoes] at meet
        obtain ⟨rfl, ending⟩ := List.append_inj' meet rfl
        rw [lies, otherLies, List.append_cancel_right (List.cons.inj ending).1]
    | some directory =>
        obtain ⟨firstStays, secondStays⟩ := stays (by rw [outDir]; rfl)
        obtain ⟨names, name, mirrored, goes⟩ :=
          exists_mirrored (isFound first isFirst) (same ▸ absolute) outDir firstStays
        obtain ⟨others, other, otherMirrored, otherGoes⟩ :=
          exists_mirrored (isFound second isSecond) (same ▸ absolute) outDir secondStays
        rw [goes, otherGoes]
        constructor
        · intro meet
          obtain ⟨rfl, ending⟩ := List.append_inj' (List.append_cancel_left meet) rfl
          obtain rfl := List.append_cancel_right (List.cons.inj ending).1
          have flat := mirrored.isFlat_of_same otherMirrored different
          have notEmpty := (mirrored.isFlat_iff.mp flat).2
          refine ⟨rfl, ?_, flat, otherMirrored.isFlat_of_same mirrored (Ne.symm different)⟩
          rw [mirrored.fileName?_eq notEmpty, otherMirrored.fileName?_eq notEmpty]
        · rintro ⟨_, sameName, flat, otherFlat⟩
          obtain ⟨rfl, notEmpty⟩ := mirrored.isFlat_iff.mp flat
          obtain ⟨rfl, otherNotEmpty⟩ := otherMirrored.isFlat_iff.mp otherFlat
          rw [mirrored.fileName?_eq notEmpty, otherMirrored.fileName?_eq otherNotEmpty] at sameName
          rw [Option.some.inj sameName]

/-- One name in a file of the workspace and in a file outside it: the outputs lie apart. -/
theorem location_target_eq_iff_pages :
    let component : Node := .file (.text "<p/>".toList)
    let files : FileSystem :=
      ⟨[("other".toList, .directory [("Card.astro".toList, component)]),
        ("site".toList, .directory [("pages".toList,
          .directory [("Card.astro".toList, component)])])]⟩
    let criteria : Discovery.Criteria :=
      ⟨"/site".toList, [".astro".toList], Discovery.matchesAny []⟩
    let settings : RunSettings := ⟨"/site".toList, .omitted, some "/site/out".toList, false⟩
    let page : Path := "/site/pages/Card.astro".toList
    let other : Path := "/other/Card.astro".toList
    let found := [other, page]
    (files.isSound ∧ criteria.workspace.isAbsolute ∧
      Discovery.collect files criteria ["/other".toList, ".".toList] = .ok found ∧
      settings.workspace = criteria.workspace) ∧
    (found.Pairwise fun first second =>
      ['.', '.'] ∉ first.segments → ['.', '.'] ∉ second.segments →
        first.location ≠ second.location) ∧
    ∀ first ∈ found, ∀ second ∈ found, first.location ≠ second.location →
      (settings.outDir.isSome → settings.staysInside first ∧ settings.staysInside second) →
      ((settings.target first).location = (settings.target second).location ↔
        settings.outDir.isSome ∧ first.fileName? = second.fileName? ∧
          settings.isFlat first ∧ settings.isFlat second) := by
  intro component files criteria settings page other found
  have sound : files.isSound := by decide +kernel
  have collected : Discovery.collect files criteria ["/other".toList, ".".toList] = .ok found :=
    Discovery.collect_eq_flatten
      (.cons (by decide +kernel : _ = some [other])
        (.cons (by decide +kernel : _ = some [page]) .nil))
      (by decide +kernel)
  exact ⟨⟨sound, rfl, collected, rfl⟩, location_target_eq_iff sound rfl collected rfl⟩

/--
Two files outside the workspace have one output, and a file of the workspace is collected twice by
paths of which one has a step up.  A path that leads out of the workspace by steps up can have the
output of a file that lies deep in the workspace.
-/
theorem location_target_meets :
    let component : Node := .file (.text "<p/>".toList)
    let deep : Node := .directory [("pages".toList,
      .directory [("Card.astro".toList, component)])]
    let files : FileSystem :=
      ⟨[("a".toList, .directory [("Card.astro".toList, component)]),
        ("b".toList, .directory [("Card.astro".toList, component)]),
        ("c".toList, deep),
        ("site".toList, .directory [("Card.astro".toList, component),
          ("pages".toList, .directory [("Card.astro".toList, component)])])]⟩
    let criteria : Discovery.Criteria :=
      ⟨"/site".toList, [".astro".toList], Discovery.matchesAny []⟩
    let settings : RunSettings := ⟨"/site".toList, .omitted, some "/site/out".toList, false⟩
    let far : RunSettings := { settings with outDir := some "/out/c".toList }
    let outside : List Path := ["/a/Card.astro".toList, "/b/Card.astro".toList]
    let inside : List Path := ["/site/Card.astro".toList, "/site/pages/../Card.astro".toList]
    let climbing : List Path :=
      ["/site/pages/../../c/pages/Card.astro".toList, "/site/pages/Card.astro".toList]
    (Discovery.collect files criteria outside = .ok outside ∧
      outside.map Path.location =
        [["a".toList, "Card.astro".toList], ["b".toList, "Card.astro".toList]] ∧
      outside.map (settings.target · |>.location) =
        List.replicate 2 ["site".toList, "out".toList, "Card.astro.tsx".toList]) ∧
    (Discovery.collect files criteria inside = .ok inside ∧
      inside.map Path.location = List.replicate 2 ["site".toList, "Card.astro".toList]) ∧
    Discovery.collect files criteria climbing = .ok climbing ∧
      climbing.map Path.location =
        [["c".toList, "pages".toList, "Card.astro".toList],
          ["site".toList, "pages".toList, "Card.astro".toList]] ∧
      climbing.map far.isFlat = [false, false] ∧
      climbing.map (far.target · |>.location) = List.replicate 2
        ["out".toList, "c".toList, "pages".toList, "Card.astro.tsx".toList] := by
  intro component deep files criteria settings far outside inside climbing
  have collects {first second : Path}
      (isFirst : Discovery.filesFor? files criteria (Path.resolve criteria.workspace first) =
        some [first])
      (isSecond : Discovery.filesFor? files criteria (Path.resolve criteria.workspace second) =
        some [second])
      (ordered : [first, second].Pairwise fun first second =>
        Path.componentsLe first.components second.components ∧
          first.components ≠ second.components) :
      Discovery.collect files criteria [first, second] = .ok [first, second] :=
    Discovery.collect_eq_flatten (.cons isFirst (.cons isSecond .nil)) ordered
  refine ⟨⟨collects ?_ ?_ ?_, by decide +kernel, by decide +kernel⟩,
    ⟨collects ?_ ?_ ?_, by decide +kernel⟩, collects ?_ ?_ ?_, by decide +kernel,
    by decide +kernel, by decide +kernel⟩ <;> decide +kernel

end ComponentTsx.RunSettings
