import ComponentTsx.Proofs.Run.Delivery

/-!
# Runs in any order

A run whose outputs do not meet delivers what it reports and changes nothing else
(`run_delivers`).  If its device has restrictions on reading and writing at most, and
every step up in the path of an output leaves a directory that was there before the
run, it also comes to the same in whatever order its files are converted: each report
says what it says of the file alone, and the same stands at each location afterwards
(`run_inAnyOrder`).

Without the condition on steps up the reports hang on the order.  So they do on a full
disk, and on a device that does not tell a directory; and a file that fails, on a full
disk or because its source map is refused, can change its target
(`run_inOrder_meets`).
-/

namespace ComponentTsx

set_option autoImplicit false

namespace RunSettings.Independent

variable {settings : RunSettings} {base : FileSystem} {found : List Path}

theorem nodup (independent : settings.Independent base found) : found.Nodup := by
  refine (List.nodup_flatMap.mp independent.distinct).2.imp ?_
  rintro first second disjoint rfl
  exact disjoint (target_mem_targets settings first) (target_mem_targets settings first)

/-- What comes of converting the files in an order. -/
theorem convertFiles_perm (independent : settings.Independent base found)
    (areFound : ∀ file ∈ found, IsFound base file) (writes : settings.emitTsx = false)
    (restrictions : Restrictions) {order : List Path} (perm : order.Perm found) :
    let device := Device.ofRestrictions restrictions
    (convertFiles settings base order fun _ => device).1.map (·.report) =
        order.map (fun file => (convertFile settings base file device).report) ∧
      base.view.Becomes (found.map (settings.effect restrictions base.view))
        (convertFiles settings base order fun _ => device).2.view := by
  have start : base.view.Becomes
      (([] : List Path).map (settings.effect restrictions base.view)) base.view :=
    .nil base.view
  obtain ⟨reports, made⟩ := independent.convertFiles_becomes areFound writes
    (by rw [List.append_nil]; exact perm.nodup_iff.mpr independent.nodup)
    (fun other member => perm.mem_iff.mp (by rwa [List.append_nil] at member)) start
  refine ⟨reports, made.of_mem_iff fun effect => ?_⟩
  rw [List.append_nil]
  exact ((perm.symm.trans order.reverse_perm.symm).map _).mem_iff

end RunSettings.Independent

/-! ## The order of a run -/

variable {arguments : Arguments} {surroundings : Surroundings} {settings : RunSettings}
  {found : List Path}

/--
What a run comes to on a device whose files are converted in some order, whether the order of their
paths or another one.
-/
structure ConvertedAlone (arguments : Arguments) (surroundings : Surroundings)
    (settings : RunSettings) (found : List Path) (device : Device) (order : List Path) :
    Prop where
  /-- Each report says what it says of the file alone. -/
  reports : (convertFiles settings surroundings.files order fun _ => device).1.map (·.report) =
    order.map fun file => (convertFile settings surroundings.files file device).report
  /-- In the order of the paths, and in any other, the same stands at each location. -/
  view : (convertFiles settings surroundings.files order fun _ => device).2.view =
    (run arguments surroundings fun _ => device).files.view
  /-- The summary has the reports in the order of the paths. -/
  summary : ∃ summary, (run arguments surroundings fun _ => device).outcome = .ok summary ∧
    summary.files =
      found.map fun file => (convertFile settings surroundings.files file device).report

/--
**A run whose outputs do not meet delivers what it reports**, whatever its device refuses; **and
under restrictions it comes to the same in whatever order its files are converted.**
-/
theorem run_inAnyOrder (sound : surroundings.files.isSound)
    (absolute : surroundings.currentDirectory.isAbsolute)
    (reaches : arguments.conversions? surroundings = some (settings, found))
    (writes : arguments.emitTsx = false) (apart : settings.KeepsApart found) :
    (∀ device, Delivers arguments surroundings settings found device) ∧
    ((settings.outDir.isSome → ∀ file ∈ found, settings.StepsUp surroundings.files.view file) →
      ∀ (restrictions : Restrictions) (order : List Path), order.Perm found →
        ConvertedAlone arguments surroundings settings found (.ofRestrictions restrictions)
          order) := by
  refine ⟨run_delivers sound absolute reaches writes apart,
    fun leaves restrictions order perm => ?_⟩
  have independent : settings.Independent surroundings.files found := ⟨apart, leaves⟩
  have areFound := isFound_of_conversions? sound absolute reaches
  have noPrinting := (Arguments.emitTsx_of_conversions? reaches).trans writes
  obtain ⟨outcome, files⟩ := run_of_conversions? reaches fun _ => .ofRestrictions restrictions
  obtain ⟨reports, becomes⟩ :=
    independent.convertFiles_perm areFound noPrinting restrictions (List.Perm.refl found)
  obtain ⟨orderReports, orderBecomes⟩ :=
    independent.convertFiles_perm areFound noPrinting restrictions perm
  rw [← files] at becomes
  exact ⟨orderReports, orderBecomes.unique becomes, _, outcome, reports⟩

/--
Three files, of which one is no text and one has a file in its way: on a disk that is full, and from
the last file to the first, where one file must not be read and no file may have many bytes.
-/
theorem run_inAnyOrder_site :
    let card : Node := .file (.text "<p/>".toList)
    let files : FileSystem :=
      ⟨[("site".toList, .directory [("Old.astro".toList, .file (.undecodable [255])),
        ("pages".toList, .directory [("Card.astro".toList, card),
          ("b".toList, .directory [("Tag.astro".toList, card)])]),
        ("out".toList, .directory [("pages".toList, .directory [("b".toList, card)])])])]⟩
    let surroundings : Surroundings := { files, currentDirectory := "/site".toList }
    let paths : List Path :=
      ["Old.astro".toList, "pages/Card.astro".toList, "pages/b/Tag.astro".toList]
    let arguments : Arguments :=
      { paths, outDir := some "out".toList, sourcemap := some .both }
    let settings : RunSettings := ⟨"/site".toList, .both, some "/site/out".toList, false⟩
    let found : List Path := ["/site/Old.astro".toList, "/site/pages/Card.astro".toList,
      "/site/pages/b/Tag.astro".toList]
    let restrictions : Restrictions :=
      { read? := fun path =>
          if path = "/site/Old.astro".toList then some ⟨"Permission denied", 13⟩ else none
        room? := fun _ => some (200, ⟨"File too large", 27⟩) }
    (files.isSound ∧ surroundings.currentDirectory.isAbsolute ∧
      arguments.conversions? surroundings = some (settings, found) ∧ arguments.emitTsx = false ∧
      settings.Independent files found ∧ found.reverse.Perm found) ∧
    Delivers arguments surroundings settings found (fun _ => .ofCapacity 50) ∧
    ConvertedAlone arguments surroundings settings found (.ofRestrictions restrictions)
      found.reverse := by
  intro card files surroundings paths arguments settings found restrictions
  have sound : files.isSound := by decide +kernel
  have reaches : arguments.conversions? surroundings = some (settings, found) :=
    arguments.conversions?_of_isFile surroundings "/site".toList rfl (by decide +kernel) rfl
      (by decide +kernel) (by decide +kernel) (by decide +kernel)
  have apart : settings.KeepsApart found := by decide +kernel
  have leaves : settings.outDir.isSome → ∀ file ∈ found, settings.StepsUp files.view file := by
    have down : ∀ file ∈ found, ['.', '.'] ∉ (settings.target file).segments := by decide +kernel
    exact fun _ file isFile _ _ => View.stepsUp_of_notMem (down file isFile)
  obtain ⟨delivers, inOrder⟩ := run_inAnyOrder sound rfl reaches rfl apart
  exact ⟨⟨sound, rfl, reaches, rfl, ⟨apart, leaves⟩, found.reverse_perm⟩, delivers _,
    inOrder leaves restrictions _ found.reverse_perm⟩

/--
With a step up out of a directory that one of the conversions makes, the error hangs on the order.
On a full disk it hangs on the order which file fails, and a file that fails has another target than
before; so has one whose source map is refused.  It also hangs on the order which file fails where
a directory that one of them has made is not told to be one.
-/
theorem run_inOrder_meets :
    let card : Node := .file (.text "<p/>".toList)
    let nested : FileSystem :=
      ⟨[("site".toList, .directory [("a".toList, .directory [("G.astro".toList, card)]),
        ("b".toList, .directory [("c".toList, .directory [("F.astro".toList, card)])]),
        ("out".toList, .directory [("b".toList, card)])])]⟩
    let pair : FileSystem :=
      ⟨[("site".toList, .directory [("A.astro".toList, card), ("B.astro".toList, card)])]⟩
    let beside : FileSystem :=
      ⟨[("site".toList, .directory [("Card.astro".toList, card),
        ("Card.astro.tsx.map".toList, .directory [])])]⟩
    let first : Path := "/site/a/../b/c/F.astro".toList
    let second : Path := "/site/a/G.astro".toList
    let left : Path := "/site/A.astro".toList
    let right : Path := "/site/B.astro".toList
    let single : Path := "/site/Card.astro".toList
    let mirrored : Arguments :=
      { paths := ["a/../b/c/F.astro".toList, "a/G.astro".toList], outDir := some "out".toList }
    let paired : Arguments := { paths := ["A.astro".toList, "B.astro".toList] }
    let gathered : Arguments := { paired with outDir := some "out".toList }
    let mapped : Arguments := { paths := ["Card.astro".toList], sourcemap := some .external }
    let full : Path → Device := fun _ => .ofCapacity 150
    let denied (operation : Operation) : Option Fault :=
      if operation = .inspect then some ⟨"Permission denied", 13⟩ else none
    let blind : Path → Device := fun _ => ⟨fun operation _ _ => denied operation, fun _ _ => none⟩
    let errors (settings : RunSettings) (files : FileSystem) (order : List Path) :=
      (convertFiles settings files order).1.map (·.report.error)
    (∃ settings, mirrored.conversions? ⟨nested, "/site".toList, .text []⟩ =
        some (settings, [first, second]) ∧
      settings.KeepsApart [first, second] ∧
      errors settings nested [first, second] = [some ("failed to write ".toList ++
        "/site/out/a/../b/c/F.astro.tsx: File exists (os error 17)".toList), none] ∧
      errors settings nested [second, first] = [none, some ("failed to write ".toList ++
        "/site/out/a/../b/c/F.astro.tsx: Not a directory (os error 20)".toList)]) ∧
    (∃ settings, paired.conversions? ⟨pair, "/site".toList, .text []⟩ =
        some (settings, [left, right]) ∧
      settings.Independent pair [left, right] ∧
      (convertFiles settings pair [left, right] full).1.map (·.report.error) =
        [none, some ("failed to write ".toList ++
          "/site/B.astro.tsx: No space left on device (os error 28)".toList)] ∧
      (convertFiles settings pair [right, left] full).1.map (·.report.error) =
        [none, some ("failed to write ".toList ++
          "/site/A.astro.tsx: No space left on device (os error 28)".toList)] ∧
      pair.view (settings.target right).location = none ∧
      (convertFiles settings pair [left, right] full).2.view (settings.target right).location ≠
        none) ∧
    (∃ settings, gathered.conversions? ⟨pair, "/site".toList, .text []⟩ =
        some (settings, [left, right]) ∧
      settings.Independent pair [left, right] ∧
      (convertFiles settings pair [left, right] blind).1.map (·.report.error) =
        [none, some ("failed to write ".toList ++
          "/site/out/B.astro.tsx: File exists (os error 17)".toList)] ∧
      (convertFiles settings pair [right, left] blind).1.map (·.report.error) =
        [none, some ("failed to write ".toList ++
          "/site/out/A.astro.tsx: File exists (os error 17)".toList)]) ∧
    ∃ settings, mapped.conversions? ⟨beside, "/site".toList, .text []⟩ = some (settings, [single]) ∧
      settings.Independent beside [single] ∧
      (errors settings beside [single]).map Option.isSome = [true] ∧
      beside.view (settings.target single).location = none ∧
      (convertFiles settings beside [single]).2.view (settings.target single).location ≠ none := by
  intro card nested pair beside first second left right single mirrored paired gathered mapped full
    denied blind errors
  have converts (arguments : Arguments) (files : FileSystem) :=
    arguments.conversions?_of_isFile ⟨files, "/site".toList, .text []⟩ "/site".toList
  have down : ∀ file ∈ [left, right], ['.', '.'] ∉ (RunSettings.target
      ⟨"/site".toList, .omitted, some "/site/out".toList, false⟩ file).segments := by
    decide +kernel
  refine ⟨⟨⟨"/site".toList, .omitted, some "/site/out".toList, false⟩,
      converts mirrored nested rfl ?_ rfl ?_ ?_ ?_, ?_, ?_, ?_⟩,
    ⟨⟨"/site".toList, .omitted, none, false⟩, converts paired pair rfl ?_ rfl ?_ ?_ ?_,
      ⟨?_, nofun⟩, ?_, ?_, ?_, ?_⟩,
    ⟨⟨"/site".toList, .omitted, some "/site/out".toList, false⟩,
      converts gathered pair rfl ?_ rfl ?_ ?_ ?_,
      ⟨?_, fun _ file isFile _ _ => View.stepsUp_of_notMem (down file isFile)⟩, ?_, ?_⟩,
    ⟨"/site".toList, .external, none, false⟩, converts mapped beside rfl ?_ rfl ?_ ?_ ?_,
      ⟨?_, nofun⟩, ?_, ?_, ?_⟩ <;> decide +kernel

end ComponentTsx
