import ComponentTsx.Proofs.Discovery.Stability
import ComponentTsx.Proofs.Path.Components
import Mathlib.Data.List.Sort

/-!
# Exact discovery

What a list of paths asks for can be said without a search: a file that is asked
for by its path, and each file at any depth below a directory that is asked for,
if its name has a configured ending and its path is not ignored (`AsksFor`).
Files in directories that cannot be read, since their paths are too long, do not
count, nor does what has no path, since a name on the way to it is no text.

A search fails exactly if there is nothing where one of the paths leads.
Otherwise it finds exactly the files that are asked for, each once and in the
order of the components of their paths (`FindsExactly`).  This settles the
components of what is found, so neither the order of the arguments nor their
repetition matters (`collect_exact`).
-/

namespace ComponentTsx

set_option autoImplicit false

/-! ## Endings -/

namespace Config

/-- The endings looked for: each extension with one point before it, or the one of components. -/
inductive IsEnding (config : Config) : Text → Prop
  | default (noneGiven : config.extensions = []) : IsEnding config ".astro".toList
  | given {points rest : Text} (isGiven : points ++ rest ∈ config.extensions)
      (allPoints : ∀ char ∈ points, char = '.') (noPoint : rest.head? ≠ some '.') :
      IsEnding config ('.' :: rest)

theorem mem_fileExtensions_iff {config : Config} {ending : Text} :
    ending ∈ config.fileExtensions ↔ config.IsEnding ending := by
  unfold fileExtensions
  constructor
  · intro member
    split at member
    · rename_i noneGiven
      rw [List.mem_singleton.mp member]
      exact .default (List.isEmpty_iff.mp noneGiven)
    · obtain ⟨extension, isGiven, rfl⟩ := List.mem_map.mp member
      rw [← List.takeWhile_append_dropWhile (p := (· = '.')) (l := extension)] at isGiven
      refine .given isGiven (fun char isPoint => ?_) (fun isPoint => ?_)
      · simpa using List.mem_takeWhile_imp isPoint
      · have fails := List.head?_dropWhile_not (· = '.') extension
        rw [isPoint] at fails
        simp at fails
  · rintro (noneGiven | ⟨isGiven, allPoints, noPoint⟩)
    · rw [if_pos (List.isEmpty_iff.mpr noneGiven)]
      exact List.mem_singleton_self _
    · rename_i points rest
      rw [if_neg (by simpa using List.ne_nil_of_mem isGiven)]
      refine List.mem_map.mpr ⟨points ++ rest, isGiven, ?_⟩
      have kept : rest.dropWhile (· = '.') = rest := by
        cases rest with
        | nil => rfl
        | cons first others =>
            exact List.dropWhile_cons_of_neg (by simpa using noPoint)
      rw [List.dropWhile_append_of_pos (by simpa using allPoints), kept]

end Config

/-! ## Files below a directory -/

namespace Node

theorem mem_descendantsOf {entries : Entries} {name : EntryName} {child inner : Node}
    (found : entries.lookup name = some child) {rest : List EntryName}
    (inside : (rest, inner) = ([], child) ∨ (rest, inner) ∈ child.descendants) :
    (name :: rest, inner) ∈ descendantsOf entries := by
  induction entries with
  | nil => cases found
  | cons entry others ih =>
      obtain ⟨other, node⟩ := entry
      rw [descendantsOf, List.cons_append]
      rw [List.lookup_cons] at found
      split at found
      · rename_i same
        cases found
        rw [eq_of_beq same]
        rcases inside with itself | below
        · cases itself
          exact List.mem_cons_self
        · refine List.mem_cons_of_mem _ (List.mem_append_left _ ?_)
          exact List.mem_map.mpr ⟨(rest, inner), below, rfl⟩
      · exact List.mem_cons_of_mem _ (List.mem_append_right _ (ih found))

/-- Every node that texts lead to is listed. -/
theorem mem_descendants_of_at? {node inner : Node} {names : Location} (nonempty : names ≠ [])
    (present : node.at? names = some inner) :
    (names.map EntryName.text, inner) ∈ node.descendants := by
  induction names generalizing node with
  | nil => exact absurd rfl nonempty
  | cons name rest ih =>
      cases node with
      | file contents => cases present
      | directory entries =>
          obtain ⟨child, isChild, below⟩ := Option.bind_eq_some_iff.mp present
          rw [descendants, List.map_cons]
          refine mem_descendantsOf isChild ?_
          cases rest with
          | nil =>
              cases below
              exact .inl rfl
          | cons second later => exact .inr (ih (List.cons_ne_nil second later) below)

end Node

namespace FileSystem

variable {files : FileSystem}

/-- Whether there is a file or a directory where a path leads. -/
def IsPresent (files : FileSystem) (path : Path) : Prop :=
  ∃ location, files.view.locate path = .ok location ∧ files.view location ≠ none

theorem isPresent_iff {path : Path} :
    files.IsPresent path ↔ files.isFile path ∨ files.isDirectory path := by
  rw [isFile_iff, isDirectory_iff]
  constructor
  · rintro ⟨location, leads, present⟩
    obtain ⟨seen, isSeen⟩ := Option.ne_none_iff_exists'.mp present
    cases seen with
    | directory => exact .inr ⟨location, leads, isSeen⟩
    | file contents => exact .inl ⟨location, contents, leads, isSeen⟩
  · rintro (⟨location, contents, leads, isSeen⟩ | ⟨location, leads, isSeen⟩)
    all_goals exact ⟨location, leads, by rw [isSeen]; exact Option.some_ne_none _⟩

/-- **The files below a directory are all the files whose locations go on from it.** -/
theorem mem_filesBelow_iff (sound : files.isSound) {directory : Path} {location names : Location}
    (leads : files.view.locate directory = .ok location) :
    names ∈ files.filesBelow directory ↔
      names ≠ [] ∧ ∃ contents, files.view (location ++ names) = some (.file contents) := by
  constructor
  · intro member
    obtain ⟨other, contents, _, onward, isFile, nonempty, _⟩ :=
      Discovery.exists_of_mem_filesBelow sound member
    have same : other = location :=
      (View.eq_locationFrom_of_pathway onward).trans (View.eq_location_of_locate leads).symm
    exact ⟨nonempty, contents, same ▸ isFile⟩
  · rintro ⟨nonempty, contents, isFile⟩
    obtain ⟨inner, present, seen⟩ := Option.map_eq_some_iff.mp isFile
    rw [node?_append] at present
    obtain ⟨node, here, below⟩ := Option.bind_eq_some_iff.mp present
    rw [filesBelow, find?, locate_eq, leads]
    simp only [Except.map, here]
    refine List.mem_map.mpr ⟨(names, inner), List.mem_filter.mpr ⟨?_, ?_⟩, rfl⟩
    · exact Node.mem_decodable_iff.mpr (Node.mem_descendants_of_at? nonempty below)
    · cases inner with
      | directory entries => cases seen
      | file contents => rfl

end FileSystem

namespace Discovery

variable {files : FileSystem}

/-! ## Searched files -/

/-- **A search finds the files below a directory with one of the endings that are not ignored.** -/
theorem mem_search_iff (sound : files.isSound) {criteria : Criteria} {directory path : Path}
    (absolute : directory.isAbsolute) {location : Location}
    (leads : files.view.locate directory = .ok location) :
    path ∈ (filesIn files directory).filter criteria.admits ↔
      ∃ names name contents, path = Path.join (names.foldl Path.join directory) name ∧
        files.view (location ++ (names ++ [name])) = some (.file contents) ∧
        (names.foldl Path.join directory).byteLength < FileSystem.pathLimit ∧
        (∃ ending ∈ criteria.endings, ending <:+ name) ∧
        ¬ criteria.ignores (Path.relativeTo criteria.workspace path) := by
  have admits_iff {names : Location} {name : Text}
      (member : names ++ [name] ∈ files.filesBelow directory) :=
    have ⟨_, _, _, _, _, _, named⟩ := exists_of_mem_filesBelow sound member
    have ⟨isName, noSlash, _, _⟩ := FileSystem.isEntryName_iff.mp (named name (by simp))
    criteria.admits_join_iff (FileSystem.isAbsolute_foldl_join absolute names) isName noSlash
  constructor
  · intro member
    obtain ⟨inside, admitted⟩ := List.mem_filter.mp member
    obtain ⟨all, reachable, rfl⟩ := List.mem_map.mp inside
    obtain ⟨below, short⟩ := List.mem_filter.mp reachable
    obtain ⟨nonempty, contents, isFile⟩ := (FileSystem.mem_filesBelow_iff sound leads).mp below
    obtain ⟨names, name, rfl⟩ := (List.eq_nil_or_concat all).resolve_left nonempty
    rw [List.concat_eq_append] at below short isFile admitted ⊢
    rw [List.foldl_concat] at admitted ⊢
    rw [List.dropLast_concat, decide_eq_true_eq] at short
    obtain ⟨ends, notIgnored⟩ := (admits_iff below).mp admitted
    exact ⟨names, name, contents, rfl, isFile, short, ends, notIgnored⟩
  · rintro ⟨names, name, contents, rfl, isFile, short, ends, notIgnored⟩
    have below : names ++ [name] ∈ files.filesBelow directory :=
      (FileSystem.mem_filesBelow_iff sound leads).mpr ⟨by simp, contents, isFile⟩
    refine List.mem_filter.mpr ⟨?_, (admits_iff below).mpr ⟨ends, notIgnored⟩⟩
    refine List.mem_map.mpr ⟨names ++ [name], List.mem_filter.mpr ⟨below, ?_⟩, ?_⟩
    · rwa [List.dropLast_concat, decide_eq_true_eq]
    · rw [List.foldl_concat]

/-! ## What is asked for -/

/-- Whether an argument asks for the file of a path, by the path itself or by a directory. -/
inductive AsksFor (files : FileSystem) (workspace : Path) (config : Config)
    (ignores : Path → Bool) (argument : Path) : Path → Prop
  /-- The argument names a file, whatever its ending, ignored or not. -/
  | file {location : Location} {contents : Contents}
      (leads : files.view.locate (Path.resolve workspace argument) = .ok location)
      (isFile : files.view location = some (.file contents)) :
      AsksFor files workspace config ignores argument (Path.resolve workspace argument)
  /-- The argument names a directory, and names lead from there to the file. -/
  | below {location names : Location} {name : Text} {contents : Contents} {path : Path}
      (leads : files.view.locate (Path.resolve workspace argument) = .ok location)
      (isDirectory : files.view location = some .directory)
      (isPath : path = Path.join (names.foldl Path.join (Path.resolve workspace argument)) name)
      (isFile : files.view (location ++ (names ++ [name])) = some (.file contents))
      (readable : (names.foldl Path.join (Path.resolve workspace argument)).byteLength <
        FileSystem.pathLimit)
      (ends : ∃ ending, config.IsEnding ending ∧ ending <:+ name)
      (notIgnored : ¬ ignores (Path.relativeTo workspace path)) :
      AsksFor files workspace config ignores argument path

variable {workspace : Path} {config : Config} {ignores : Path → Bool}

theorem filesFor?_eq_none_iff (criteria : Criteria) {path : Path} :
    filesFor? files criteria path = none ↔ ¬ files.IsPresent path := by
  rw [FileSystem.isPresent_iff, filesFor?]
  split
  · simp_all
  · split <;> simp_all

/-- **The files that an argument stands for are those that it asks for.** -/
theorem asksFor_iff (sound : files.isSound) (absolute : workspace.isAbsolute)
    {argument path : Path} :
    AsksFor files workspace config ignores argument path ↔
      ∃ result, filesFor? files ⟨workspace, config.fileExtensions, ignores⟩
        (Path.resolve workspace argument) = some result ∧ path ∈ result := by
  have resolved := isAbsolute_resolve absolute argument
  rw [filesFor?]
  constructor
  · rintro (⟨leads, isFile⟩ | ⟨leads, isDirectory, isPath, isFile, readable, ends, notIgnored⟩)
    · rw [if_pos (FileSystem.isFile_iff.mpr ⟨_, _, leads, isFile⟩)]
      exact ⟨_, rfl, List.mem_singleton_self _⟩
    · rw [if_neg (FileSystem.not_isFile_of_directory leads isDirectory),
        if_pos (FileSystem.isDirectory_iff.mpr ⟨_, leads, isDirectory⟩)]
      obtain ⟨ending, isEnding, isSuffix⟩ := ends
      refine ⟨_, rfl, (mem_search_iff sound resolved leads).mpr ?_⟩
      exact ⟨_, _, _, isPath, isFile, readable,
        ⟨ending, Config.mem_fileExtensions_iff.mpr isEnding, isSuffix⟩, notIgnored⟩
  · rintro ⟨result, finds, member⟩
    split at finds
    · rename_i isFile
      cases finds
      obtain ⟨location, contents, leads, holds⟩ := FileSystem.isFile_iff.mp isFile
      rw [List.mem_singleton.mp member]
      exact .file leads holds
    · split at finds
      · rename_i isDirectory
        cases finds
        obtain ⟨location, leads, isDirectory⟩ := FileSystem.isDirectory_iff.mp isDirectory
        obtain ⟨names, name, contents, isPath, isFile, readable, ⟨ending, isEnding, isSuffix⟩,
          notIgnored⟩ := (mem_search_iff sound resolved leads).mp member
        exact .below leads isDirectory isPath isFile readable
          ⟨ending, Config.mem_fileExtensions_iff.mp isEnding, isSuffix⟩ notIgnored
      · cases finds

/-! ## What is collected -/

/-- Each of the computations that succeed together has its result. -/
theorem forall₂_of_mapM_eq_ok {α β ε : Type} {compute : α → Except ε β} {items : List α}
    {results : List β} (computed : items.mapM compute = .ok results) :
    List.Forall₂ (fun item result => compute item = .ok result) items results := by
  induction items generalizing results with
  | nil =>
      cases computed
      exact .nil
  | cons item rest ih =>
      rw [List.mapM_cons] at computed
      obtain ⟨here, first, computed⟩ := exists_of_bind_eq_ok computed
      obtain ⟨later, others, computed⟩ := exists_of_bind_eq_ok computed
      cases computed
      exact .cons first (ih others)

/-- Computations fail together as the first of them that fails. -/
theorem mapM_eq_error_iff {α β ε : Type} {compute : α → Except ε β} {items : List α} {error : ε} :
    items.mapM compute = .error error ↔
      ∃ before item after, items = before ++ item :: after ∧
        (∀ earlier ∈ before, ∃ result, compute earlier = .ok result) ∧
        compute item = .error error := by
  constructor
  · intro failed
    induction items with
    | nil => cases failed
    | cons item rest ih =>
        rw [List.mapM_cons] at failed
        cases here : compute item with
        | error other =>
            rw [here] at failed
            cases failed
            exact ⟨[], item, rest, rfl, List.forall_mem_nil _, here⟩
        | ok result =>
            rw [here] at failed
            cases later : rest.mapM compute with
            | ok results =>
                rw [later] at failed
                cases failed
            | error other =>
                rw [later] at failed
                cases failed
                obtain ⟨before, failing, after, rfl, earlier, fails⟩ := ih later
                exact ⟨item :: before, failing, after, rfl,
                  List.forall_mem_cons.mpr ⟨⟨result, here⟩, earlier⟩, fails⟩
  · rintro ⟨before, item, after, rfl, earlier, fails⟩
    induction before with
    | nil =>
        rw [List.nil_append, List.mapM_cons, fails]
        rfl
    | cons first others ih =>
        obtain ⟨⟨result, here⟩, later⟩ := List.forall_mem_cons.mp earlier
        rw [List.cons_append, List.mapM_cons, here, ih later]
        rfl

theorem mem_flatten_iff_of_forall₂ {α β : Type} {find? : α → Option (List β)} {items : List α}
    {results : List (List β)}
    (each : List.Forall₂ (fun item result => find? item = some result) items results) {value : β} :
    value ∈ results.flatten ↔
      ∃ item ∈ items, ∃ result, find? item = some result ∧ value ∈ result := by
  induction each with
  | nil => simp
  | cons here _ ih => simp [ih, here]

/-- The files that an argument stands for, or the path from the workspace if there are none. -/
def argumentFiles (files : FileSystem) (criteria : Criteria) (argument : Path) :
    Except Path (List Path) :=
  let path := Path.resolve criteria.workspace argument
  match filesFor? files criteria path with
  | some found => .ok found
  | none => .error path

theorem collect_eq (files : FileSystem) (criteria : Criteria) (paths : List Path) :
    collect files criteria paths =
      (paths.mapM (argumentFiles files criteria)).bind fun found => .ok (inOrder found.flatten) :=
  rfl

theorem argumentFiles_eq_ok_iff {criteria : Criteria} {argument : Path} {found : List Path} :
    argumentFiles files criteria argument = .ok found ↔
      filesFor? files criteria (Path.resolve criteria.workspace argument) = some found := by
  rw [argumentFiles]
  cases filesFor? files criteria (Path.resolve criteria.workspace argument) <;> simp

theorem argumentFiles_eq_error_iff {criteria : Criteria} {argument missing : Path} :
    argumentFiles files criteria argument = .error missing ↔
      ¬ files.IsPresent (Path.resolve criteria.workspace argument) ∧
        missing = Path.resolve criteria.workspace argument := by
  rw [← filesFor?_eq_none_iff criteria, argumentFiles]
  cases filesFor? files criteria (Path.resolve criteria.workspace argument) <;> simp [eq_comm]

theorem exists_argumentFiles_iff {criteria : Criteria} {argument : Path} :
    (∃ found, argumentFiles files criteria argument = .ok found) ↔
      files.IsPresent (Path.resolve criteria.workspace argument) := by
  simp only [argumentFiles_eq_ok_iff, ← Option.ne_none_iff_exists', ne_eq, filesFor?_eq_none_iff,
    not_not]

/-- **A search fails with the first argument that leads to nothing.** -/
theorem collect_eq_error_iff {criteria : Criteria} {paths : List Path} {missing : Path} :
    collect files criteria paths = .error missing ↔
      ∃ before argument after, paths = before ++ argument :: after ∧
        (∀ earlier ∈ before, files.IsPresent (Path.resolve criteria.workspace earlier)) ∧
        ¬ files.IsPresent (Path.resolve criteria.workspace argument) ∧
        missing = Path.resolve criteria.workspace argument := by
  have failed : collect files criteria paths = .error missing ↔
      paths.mapM (argumentFiles files criteria) = .error missing := by
    rw [collect_eq]
    cases paths.mapM (argumentFiles files criteria) <;> simp [Except.bind]
  simp only [failed, mapM_eq_error_iff, argumentFiles_eq_error_iff, exists_argumentFiles_iff]

theorem collect_fails_iff {criteria : Criteria} {paths : List Path} :
    (∃ missing, collect files criteria paths = .error missing) ↔
      ∃ argument ∈ paths, ¬ files.IsPresent (Path.resolve criteria.workspace argument) := by
  constructor
  · rintro ⟨missing, failed⟩
    obtain ⟨before, argument, after, rfl, _, absent, _⟩ := collect_eq_error_iff.mp failed
    exact ⟨argument, by simp, absent⟩
  · rintro ⟨argument, isArgument, absent⟩
    cases collected : collect files criteria paths with
    | error missing => exact ⟨missing, rfl⟩
    | ok found =>
        obtain ⟨results, computed, _⟩ := exists_of_bind_eq_ok collected
        have each := (forall₂_of_mapM_eq_ok computed).imp fun argument found given =>
          And.intro (exists_argumentFiles_iff.mp ⟨found, given⟩) trivial
        exact absurd ((List.forall₂_and_left _ _).mp each |>.1 argument isArgument) absent

/-- What a search that succeeds is to find. -/
structure FindsExactly (files : FileSystem) (workspace : Path) (config : Config)
    (ignores : Path → Bool) (arguments found : List Path) : Prop where
  /-- Each path comes before the next in the order of the components. -/
  increasing : found.Pairwise fun first second =>
    Path.componentsLe first.components second.components ∧ first.components ≠ second.components
  sound : ∀ path ∈ found, ∃ argument ∈ arguments,
    AsksFor files workspace config ignores argument path
  complete : ∀ argument ∈ arguments, ∀ path, AsksFor files workspace config ignores argument path →
    ∃ other ∈ found, other.components = path.components

theorem findsExactly_of_collect (sound : files.isSound) (absolute : workspace.isAbsolute)
    {arguments found : List Path}
    (collected : collect files ⟨workspace, config.fileExtensions, ignores⟩ arguments = .ok found) :
    FindsExactly files workspace config ignores arguments found := by
  rw [collect_eq] at collected
  obtain ⟨results, computed, ordered⟩ := exists_of_bind_eq_ok collected
  cases ordered
  have each := (forall₂_of_mapM_eq_ok computed).imp fun _ _ => argumentFiles_eq_ok_iff.mp
  have isAskedFor {path : Path} : path ∈ results.flatten ↔
      ∃ argument ∈ arguments, AsksFor files workspace config ignores argument path := by
    simp only [asksFor_iff sound absolute, mem_flatten_iff_of_forall₂ each]
  obtain ⟨among, increasing⟩ := inOrder_subset_and_increasing results.flatten
  refine ⟨increasing, fun path member => isAskedFor.mp (among member), ?_⟩
  intro argument isArgument path asks
  exact exists_mem_inOrder (isAskedFor.mpr ⟨argument, isArgument, asks⟩)

namespace FindsExactly

variable {arguments others found alsoFound : List Path}

theorem mem_components_iff (exact : FindsExactly files workspace config ignores arguments found)
    {components : List Path.Component} :
    components ∈ found.map Path.components ↔
      ∃ argument ∈ arguments, ∃ path, AsksFor files workspace config ignores argument path ∧
        path.components = components := by
  rw [List.mem_map]
  constructor
  · rintro ⟨path, member, same⟩
    obtain ⟨argument, isArgument, asks⟩ := exact.sound path member
    exact ⟨argument, isArgument, path, asks, same⟩
  · rintro ⟨argument, isArgument, path, asks, rfl⟩
    exact exact.complete argument isArgument path asks

/-- **The components of what is found are settled by the members of the list of arguments.** -/
theorem components_eq (exact : FindsExactly files workspace config ignores arguments found)
    (other : FindsExactly files workspace config ignores others alsoFound)
    (same : ∀ path, path ∈ arguments ↔ path ∈ others) :
    found.map Path.components = alsoFound.map Path.components := by
  let before (first second : List Path.Component) : Prop :=
    Path.componentsLe first second ∧ first ≠ second
  have : Std.Antisymm before := ⟨fun _ _ le ge => Path.componentsLe_antisymm le.1 ge.1⟩
  have : Std.Irrefl before := ⟨fun _ irreflexive => irreflexive.2 rfl⟩
  have sorted : (found.map Path.components).Pairwise before :=
    List.pairwise_map.mpr exact.increasing
  have alsoSorted : (alsoFound.map Path.components).Pairwise before :=
    List.pairwise_map.mpr other.increasing
  refine sorted.eq_of_mem_iff alsoSorted fun components => ?_
  simp only [exact.mem_components_iff, other.mem_components_iff, same]

end FindsExactly

/--
**A search is exact.**  It fails just if there is nothing where one of the arguments leads from the
workspace, and finds what is asked for otherwise.  Neither the order of the arguments nor their
repetition changes the components of what is found.

An argument leads to the components of the workspace and its own, but for a point at the beginning,
unless it is absolute.  Whether a path is ignored is asked of what follows the workspace in it, or
of the path if it does not lead through the workspace.
-/
theorem collect_exact (sound : files.isSound) (absolute : workspace.isAbsolute) (config : Config)
    (ignores : Path → Bool) (arguments : List Path) :
    let search := collect files ⟨workspace, config.fileExtensions, ignores⟩
    ((∃ missing, search arguments = .error missing) ↔
      ∃ argument ∈ arguments, ¬ files.IsPresent (Path.resolve workspace argument)) ∧
    (∀ found, search arguments = .ok found →
      FindsExactly files workspace config ignores arguments found) ∧
    (∀ others, (∀ path, path ∈ others ↔ path ∈ arguments) →
      (search others).toOption.map (·.map Path.components) =
        (search arguments).toOption.map (·.map Path.components)) ∧
    (∀ argument, (Path.resolve workspace argument).components =
      if argument.isAbsolute then argument.components
      else workspace.components ++ argument.components.filter (· ≠ .current)) ∧
    ∀ path,
      (workspace.components <+: path.components →
        path.components = workspace.components ++ (Path.relativeTo workspace path).components) ∧
      (¬ workspace.components <+: path.components → Path.relativeTo workspace path = path) := by
  intro search
  have exact {paths found : List Path} (collected : search paths = .ok found) :
      FindsExactly files workspace config ignores paths found :=
    findsExactly_of_collect sound absolute collected
  refine ⟨collect_fails_iff, fun found => exact, fun others same => ?_,
    Path.components_resolve absolute, Path.components_relativeTo absolute⟩
  have failTogether : (∃ missing, search others = .error missing) ↔
      ∃ missing, search arguments = .error missing := by
    simp only [search, collect_fails_iff, same]
  cases first : search others with
  | error missing =>
      obtain ⟨alsoMissing, second⟩ := failTogether.mp ⟨missing, first⟩
      rw [second]
      rfl
  | ok found =>
      cases second : search arguments with
      | error missing =>
          obtain ⟨alsoMissing, failed⟩ := failTogether.mpr ⟨missing, second⟩
          cases first.symm.trans failed
      | ok alsoFound =>
          exact congrArg some ((exact first).components_eq (exact second) same)

/--
A file is found by its path, others below a directory that is given twice.  Some are in an ignored
directory, or in one whose name is no text.
-/
theorem collect_exact_repeated :
    let card : EntryName × Node := ("Card.astro".toList, .file (.text []))
    let files : FileSystem := ⟨[("site".toList, .directory [
      ("notes".toList, .file (.text [])),
      ("src".toList, .directory [card, ("Card.css".toList, .file (.text [])),
        ("dist".toList, .directory [card]), (.undecodable [0xC3], .directory [card]),
        ("page".toList, .directory [card])])])]⟩
    let workspace : Path := "/site".toList
    let ignores := matchesAny ((patterns? []).getD [])
    let criteria : Criteria := ⟨workspace, Config.fileExtensions {}, ignores⟩
    (files.isSound ∧ workspace.isAbsolute) ∧
      (collect files criteria ["./src".toList, "notes".toList, "./src".toList]).toOption.map
          (·.map Path.components) =
        some (["/site/notes".toList, "/site/src/Card.astro".toList,
          "/site/src/page/Card.astro".toList].map Path.components) ∧
      ∃ missing, collect files criteria ["notes".toList, "lost".toList] = .error missing := by
  intro card files workspace ignores criteria
  have sound : files.isSound := by decide +kernel
  have absolute : workspace.isAbsolute := by decide
  have each : List.Forall₂
      (fun path found => filesFor? files criteria (Path.resolve workspace path) = some found)
      ["notes".toList, "./src".toList]
      [["/site/notes".toList],
        ["/site/src/Card.astro".toList, "/site/src/page/Card.astro".toList]] :=
    .cons (by decide +kernel) (.cons (by decide +kernel) .nil)
  have collected := collect_eq_flatten each (by decide +kernel)
  have ⟨_, _, independent, _⟩ := collect_exact sound absolute {} ignores
    ["notes".toList, "./src".toList]
  have ⟨fails, _⟩ := collect_exact sound absolute {} ignores
    ["notes".toList, "lost".toList]
  refine ⟨⟨sound, absolute⟩, ?_, fails.mpr ⟨"lost".toList, by simp, ?_⟩⟩
  · rw [independent _ (by simp [or_comm]), collected]
    rfl
  · rw [FileSystem.isPresent_iff]
    decide +kernel

end Discovery

end ComponentTsx
