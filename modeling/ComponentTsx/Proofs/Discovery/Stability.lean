import ComponentTsx.Proofs.Run.Targets
import ComponentTsx.Proofs.FileSystem.Growth

/-!
# Searches in a file system that grows

A search lists files in the order of the entries, so what matters is more than
what stands where.  A step adds a directory without entries, or sets one file
(`FileSystem.Step`).  So the files that pass a test are listed as before if the
test leaves out the places where texts are written (`Grows.filter_filesBelow`).
What was collected is collected again, if no text is written to a file that a
search would find (`collect_of_grows`).
-/

namespace ComponentTsx

set_option autoImplicit false

/-! ## Files below a node -/

namespace Node

theorem decodable_text_cons (name : Text) (node : Node) (rest : Entries) :
    (directory ((.text name, node) :: rest)).decodable =
      ([name], node) :: node.decodable.map (fun (names, inner) => (name :: names, inner)) ++
        (directory rest).decodable := by
  have longer (names : List EntryName) : (EntryName.text name :: names).mapM EntryName.text? =
      (names.mapM EntryName.text?).map (name :: ·) := by
    rw [List.mapM_cons, EntryName.text?]
    cases names.mapM EntryName.text? <;> rfl
  simp [decodable, descendants, descendantsOf, longer, List.filterMap_map, List.map_filterMap,
    Function.comp_def, List.mapM_nil]

/-- What is below a name that is no text has no path. -/
theorem decodable_undecodable_cons (bytes : List UInt8) (node : Node) (rest : Entries) :
    (directory ((.undecodable bytes, node) :: rest)).decodable = (directory rest).decodable := by
  simp [decodable, descendants, descendantsOf, EntryName.text?, List.filterMap_map, List.mapM_cons]

/-- The files below a node that pass a test, each by the names that lead to it. -/
def listed (test : List Text → Bool) (node : Node) : List (List Text) :=
  ((node.decodable.filter (!·.2.isDirectory)).map (·.1)).filter test

/-- The files at and below an entry that pass a test. -/
def listedAt (test : List Text → Bool) : EntryName → Node → List (List Text)
  | .text name, directory entries =>
      (listed (fun names => test (name :: names)) (directory entries)).map (name :: ·)
  | .text name, file _ => if test [name] then [[name]] else []
  | .undecodable _, _ => []

variable {test : List Text → Bool}

theorem listed_nil : listed test (directory []) = [] := rfl

theorem listed_cons (name : EntryName) (node : Node) (rest : Entries) :
    listed test (directory ((name, node) :: rest)) =
      listedAt test name node ++ listed test (directory rest) := by
  cases name with
  | undecodable bytes =>
      rw [listed, decodable_undecodable_cons]
      rfl
  | text name =>
      rw [listed, decodable_text_cons]
      cases node with
      | directory entries =>
          simp [listed, listedAt, isDirectory, List.filter_map, Function.comp_def]
      | file contents =>
          have nothing : (file contents).decodable = [] := rfl
          by_cases passes : test [name] <;>
            simp [listed, listedAt, nothing, isDirectory, passes]

/-- An entry can be altered unseen. -/
theorem listed_alter {name : EntryName} {change : Option Node → Node} {entries : Entries}
    (unseen : listedAt test name (change (entries.lookup name)) =
      (entries.lookup name).elim [] (listedAt test name)) :
    listed test (directory (Entries.alter name change entries)) =
      listed test (directory entries) := by
  induction entries with
  | nil =>
      rw [Entries.alter, listed_cons, listed_nil, List.append_nil]
      exact unseen
  | cons entry rest ih =>
      obtain ⟨other, node⟩ := entry
      rw [Entries.alter]
      rw [List.lookup_cons] at unseen
      cases same : name == other with
      | true =>
          rw [same] at unseen
          rw [if_pos rfl, listed_cons, listed_cons, ← eq_of_beq same]
          exact congrArg (· ++ _) unseen
      | false =>
          rw [same] at unseen
          rw [if_neg Bool.false_ne_true, listed_cons, listed_cons, ih unseen]

theorem at?_singleton (entries : Entries) (name : Text) :
    (directory entries).at? [name] = entries.lookup (.text name) := by
  rw [at?, child?]
  cases entries.lookup (.text name) <;> rfl

/-- A node can be put unseen. -/
theorem listed_put {node replacement : Node} {names : Location} {name : Text}
    (parent : (node.at? names).map seen = some .directory)
    (unseen : listedAt (fun more => test (names ++ more)) name replacement =
      (node.at? (names ++ [name])).elim [] (listedAt (fun more => test (names ++ more)) name)) :
    listed test (node.put replacement (names ++ [name])) = listed test node := by
  induction names generalizing node test with
  | nil =>
      cases node with
      | file contents => cases parent
      | directory entries =>
          rw [List.nil_append, at?_singleton] at unseen
          exact listed_alter unseen
  | cons first rest ih =>
      cases node with
      | file contents => cases parent
      | directory entries =>
          rw [at?, child?] at parent
          rw [List.cons_append, at?, child?] at unseen
          cases found : entries.lookup (.text first) with
          | none =>
              rw [found] at parent
              cases parent
          | some child =>
              rw [found, Option.bind_some] at parent unseen
              have below : listed (fun names => test (first :: names))
                  (child.put replacement (rest ++ [name])) =
                    listed (fun names => test (first :: names)) child := ih parent unseen
              rw [List.cons_append, put]
              apply listed_alter
              rw [found]
              cases child with
              | directory inner =>
                  cases rest <;> exact congrArg (List.map (first :: ·)) below
              | file contents =>
                  cases rest <;> cases parent

/-- A put below a node is a put into that node. -/
theorem at?_put_of_at? {node found : Node} (replacement : Node) {above : Location}
    (present : node.at? above = some found) (below : Location) :
    (node.put replacement (above ++ below)).at? above = some (found.put replacement below) := by
  induction above generalizing node with
  | nil =>
      cases present
      rfl
  | cons first rest ih =>
      cases node with
      | file contents => cases present
      | directory entries =>
          obtain ⟨child, isChild, inside⟩ := Option.bind_eq_some_iff.mp present
          change entries.lookup (.text first) = some child at isChild
          rw [List.cons_append, put, at?, child?, Entries.lookup_alter_self, isChild]
          exact ih inside

end Node

/-! ## Files below a directory -/

namespace FileSystem

variable {files later : FileSystem} {places : Location → Prop}

/-- What a step puts, as the tests of a search see it. -/
theorem Step.exists_put (step : Step places files later) :
    ∃ outer name replacement, later = files.put (outer ++ [name]) replacement ∧
      files.view outer = some .directory ∧ files.view (outer ++ [name]) ≠ some .directory ∧
      ∀ test : List Text → Bool, (places (outer ++ [name]) → test [name] = false) →
        Node.listedAt test name replacement =
          (files.node? (outer ++ [name])).elim [] (Node.listedAt test name) := by
  cases step with
  | @make outer name parent missing =>
      have free : files.view (outer ++ [name]) ≠ some .directory := by
        rw [missing]
        exact (Option.some_ne_none _).symm
      refine ⟨outer, name, .directory [], rfl, parent, free, fun test _ => ?_⟩
      rw [Option.map_eq_none_iff.mp missing]
      rfl
  | @store outer name contents parent free place =>
      refine ⟨outer, name, .file contents, rfl, parent, free, fun test leftOut => ?_⟩
      rw [Node.listedAt, leftOut place]
      rw [view] at free
      cases here : files.node? (outer ++ [name]) with
      | none => rfl
      | some node =>
          rw [here] at free
          cases node with
          | directory entries => exact absurd rfl free
          | file earlier =>
              rw [Option.elim_some, Node.listedAt, leftOut place]

theorem filesBelow_eq {directory : Path} {location : Location} {node : Node}
    (leads : files.view.locate directory = .ok location) (here : files.node? location = some node)
    (test : List Text → Bool) : (files.filesBelow directory).filter test = node.listed test := by
  rw [filesBelow, find?, locate_eq, leads]
  simp only [Except.map, here]
  rfl

/-- **A step changes nothing in what a search lists, but for places that the search leaves out.** -/
theorem Step.filter_filesBelow (step : Step places files later) {directory : Path}
    {location : Location} (leads : files.view.locate directory = .ok location)
    (isDirectory : files.view location = some .directory) {test : List Text → Bool}
    (leftOut : ∀ names name, places (location ++ (names ++ [name])) →
      test (names ++ [name]) = false) :
    (later.filesBelow directory).filter test = (files.filesBelow directory).filter test := by
  obtain ⟨node, here, _⟩ := Option.map_eq_some_iff.mp isDirectory
  obtain ⟨outer, name, replacement, rfl, parent, free, unseen⟩ := step.exists_put
  have leadsLater := step.keeps.locate_eq_ok leads
  have nonempty : outer ++ [name] ≠ [] := List.append_ne_nil_of_right_ne_nil outer nofun
  by_cases within : location <+: outer
  · obtain ⟨names, rfl⟩ := within
    have below : (files.put (location ++ names ++ [name]) replacement).node? location =
        some (node.put replacement (names ++ [name])) := by
      rw [node?, root_put nonempty, List.append_assoc]
      exact Node.at?_put_of_at? replacement here (names ++ [name])
    rw [filesBelow_eq leadsLater below, filesBelow_eq leads here]
    rw [view, node?_append, here, Option.bind_some] at parent
    refine Node.listed_put parent ?_
    rw [List.append_assoc, node?_append, here, Option.bind_some] at unseen
    exact unseen _ (leftOut names name)
  · have notAbove : ¬ outer ++ [name] <+: location := by
      rintro ⟨more, rfl⟩
      refine free ?_
      by_cases same : more = []
      · rwa [same, List.append_nil] at isDirectory
      · exact view_of_append same (by rw [isDirectory]; exact Option.some_ne_none _)
    have notBelow : ¬ location <+: outer ++ [name] := fun below =>
      (List.prefix_concat_iff.mp below).elim
        (fun same => notAbove (same ▸ List.prefix_rfl)) within
    have same : (files.put (outer ++ [name]) replacement).node? location = some node := by
      rw [node?, root_put nonempty, Node.at?_put_of_not_isPrefix replacement notAbove notBelow]
      exact here
    rw [filesBelow_eq leadsLater same, filesBelow_eq leads here]

theorem isDirectory_iff {path : Path} :
    files.isDirectory path = true ↔ ∃ location,
      files.view.locate path = .ok location ∧ files.view location = some .directory := by
  rw [isDirectory, find?, locate_eq]
  cases files.view.locate path with
  | error error => simp [Except.map]
  | ok location =>
      simp only [Except.map, view, Except.ok.injEq]
      cases present : files.node? location with
      | none => simp [present]
      | some node => cases node <;> simp [present, Node.isDirectory, Node.seen]

theorem not_isFile_of_directory {path : Path} {location : Location}
    (leads : files.view.locate path = .ok location)
    (isDirectory : files.view location = some .directory) : ¬ files.isFile path := by
  intro isFile
  obtain ⟨other, contents, leadsAlso, holds⟩ := isFile_iff.mp isFile
  cases leads.symm.trans leadsAlso
  cases isDirectory.symm.trans holds

/-- **Growth changes nothing in what a search lists, but for places that the search leaves out.** -/
theorem Grows.filter_filesBelow (grows : Grows places files later) {directory : Path}
    {location : Location} (leads : files.view.locate directory = .ok location)
    (isDirectory : files.view location = some .directory) {test : List Text → Bool}
    (leftOut : ∀ names name, places (location ++ (names ++ [name])) →
      test (names ++ [name]) = false) :
    (later.filesBelow directory).filter test = (files.filesBelow directory).filter test := by
  induction grows with
  | refl => rfl
  | tail earlier step ih =>
      have keeps := Grows.keeps earlier
      rw [← ih]
      exact step.filter_filesBelow (keeps.locate_eq_ok leads)
        (keeps.directory location isDirectory) leftOut

end FileSystem

/-! ## Collected files -/

namespace Discovery

variable {files later : FileSystem} {places : Location → Prop} {criteria : Criteria}

/-- Whether all texts go to files with proper names that end in none of the endings looked for. -/
def Criteria.Misses (criteria : Criteria) (places : Location → Prop) : Prop :=
  ∀ outer name, places (outer ++ [name]) →
    Path.isName name ∧ '/' ∉ name ∧ ∀ ending ∈ criteria.endings, ¬ ending <:+ name

/-- The path of an entry ends with its name. -/
theorem fileName?_join {directory : Path} (absolute : directory.isAbsolute) {name : Text}
    (named : Path.isName name) (noSlash : '/' ∉ name) :
    (Path.join directory name).fileName? = some name := by
  have relative : ¬ Path.isAbsolute name := fun isAbsolute => by
    rw [Path.isAbsolute, decide_eq_true_eq] at isAbsolute
    exact noSlash (List.mem_of_mem_head? isAbsolute)
  obtain ⟨before, whole, _⟩ := Path.exists_segments_join directory relative
  rw [Path.segments_of_notMem noSlash] at whole
  exact RunSettings.fileName?_of_isName (Path.isAbsolute_join absolute name) whole named

/-- A file in a directory is admitted by its name and by its path as seen from the workspace. -/
theorem Criteria.admits_join_iff (criteria : Criteria) {directory : Path}
    (absolute : directory.isAbsolute) {name : Text} (named : Path.isName name)
    (noSlash : '/' ∉ name) :
    criteria.admits (Path.join directory name) ↔
      (∃ ending ∈ criteria.endings, ending <:+ name) ∧
        ¬ criteria.ignores (Path.relativeTo criteria.workspace (Path.join directory name)) := by
  rw [admits, fileName?_join absolute named noSlash]
  simp

theorem Criteria.Misses.admits_eq_false (misses : criteria.Misses places) {directory : Path}
    (absolute : directory.isAbsolute) {location names : Location} {name : Text}
    (place : places (location ++ (names ++ [name]))) :
    criteria.admits ((names ++ [name]).foldl Path.join directory) = false := by
  rw [← List.append_assoc] at place
  obtain ⟨named, noSlash, noEnding⟩ := misses _ name place
  rw [List.foldl_concat, Bool.eq_false_iff]
  intro admitted
  have outer := FileSystem.isAbsolute_foldl_join absolute names
  obtain ⟨⟨ending, isEnding, isSuffix⟩, _⟩ :=
    (criteria.admits_join_iff outer named noSlash).mp admitted
  exact noEnding ending isEnding isSuffix

/-- **What a path stands for is found again.** -/
theorem filesFor?_of_grows (grows : FileSystem.Grows places files later)
    (misses : criteria.Misses places) {path : Path} (absolute : path.isAbsolute)
    {found : List Path} (finds : filesFor? files criteria path = some found) :
    filesFor? later criteria path = some found := by
  have keeps := FileSystem.Grows.keeps grows
  unfold filesFor? at finds ⊢
  split at finds
  · rename_i isFile
    obtain ⟨location, contents, leads, holds⟩ := FileSystem.isFile_iff.mp isFile
    obtain ⟨other, holdsLater⟩ := keeps.file location ⟨contents, holds⟩
    rw [if_pos (FileSystem.isFile_iff.mpr ⟨location, other, keeps.locate_eq_ok leads, holdsLater⟩),
      finds]
  · split at finds
    · rename_i isDirectory
      obtain ⟨location, leads, directory⟩ := FileSystem.isDirectory_iff.mp isDirectory
      have leadsLater := keeps.locate_eq_ok leads
      have directoryLater := keeps.directory location directory
      have stillDirectory : later.isDirectory path :=
        FileSystem.isDirectory_iff.mpr ⟨location, leadsLater, directoryLater⟩
      rw [if_neg (FileSystem.not_isFile_of_directory leadsLater directoryLater),
        if_pos stillDirectory, ← finds]
      refine congrArg some ?_
      simp only [filesIn, List.filter_map, List.filter_filter]
      refine congrArg _ (FileSystem.Grows.filter_filesBelow grows leads directory ?_)
      intro names name place
      rw [Bool.and_eq_false_imp]
      intro admits
      cases (misses.admits_eq_false absolute place).symm.trans admits
    · cases finds

/-- Computations that each come to what others come to do so together. -/
theorem mapM_of_eq_ok {α β ε : Type} {compute other : α → Except ε β} {items : List α}
    {results : List β} (computed : items.mapM compute = .ok results)
    (each : ∀ item ∈ items, ∀ result, compute item = .ok result → other item = .ok result) :
    items.mapM other = .ok results := by
  induction items generalizing results with
  | nil => exact computed
  | cons item rest ih =>
      rw [List.mapM_cons] at computed ⊢
      obtain ⟨here, first, computed⟩ := exists_of_bind_eq_ok computed
      obtain ⟨more, others, computed⟩ := exists_of_bind_eq_ok computed
      rw [each item List.mem_cons_self here first,
        ih others fun item among => each item (List.mem_cons_of_mem _ among)]
      exact computed

/-- **What was collected is collected again.** -/
theorem collect_of_grows (grows : FileSystem.Grows places files later)
    (misses : criteria.Misses places) (absolute : criteria.workspace.isAbsolute)
    {paths found : List Path} (collected : collect files criteria paths = .ok found) :
    collect later criteria paths = .ok found := by
  obtain ⟨results, each, ordered⟩ := exists_of_bind_eq_ok collected
  refine (congrArg (Except.bind · fun (found : List (List Path)) => .ok (inOrder found.flatten))
    (mapM_of_eq_ok each fun path _ result finds => ?_)).trans ordered
  dsimp only at finds ⊢
  cases given : filesFor? files criteria (Path.resolve criteria.workspace path) with
  | none =>
      rw [given] at finds
      cases finds
  | some found =>
      rw [given] at finds
      rw [filesFor?_of_grows grows misses (isAbsolute_resolve absolute path) given]
      exact finds

end Discovery

end ComponentTsx
