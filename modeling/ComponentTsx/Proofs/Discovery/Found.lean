import ComponentTsx.Proofs.FileSystem.View
import ComponentTsx.Proofs.Path.Order
import Mathlib.Data.List.Forall2

/-!
# Files that are found

A file system on a disk names no entry `.` or `..`, keeps separators out of names
and has a name once in a directory (`FileSystem.isSound`).  Its names need not be
texts.  Then every path that is collected is absolute, ends with a name and names a
file (`isFound_of_mem_collect`).  It also leads there, unless it is too long, as the
path of a file in a searched directory can be.
-/

namespace ComponentTsx

set_option autoImplicit false

/-! ## Sound file systems -/

/-- Whether a text can be the name of an entry. -/
def FileSystem.isEntryName (name : Text) : Bool :=
  Path.isName name && !name.contains '/' && !name.contains '\x00' &&
    decide (name.byteLength ≤ FileSystem.nameLimit)

namespace EntryName

/-- Whether an entry can have a name; bytes that are no UTF-8 are never a path. -/
def isProper : EntryName → Bool
  | .text name => FileSystem.isEntryName name
  | .undecodable _ => true

theorem mapM_text?_eq_some_iff {names : List EntryName} {texts : List Text} :
    names.mapM text? = some texts ↔ names = texts.map text := by
  induction names generalizing texts with
  | nil => cases texts <;> simp
  | cons name rest ih =>
      cases name with
      | text name =>
          rw [List.mapM_cons, text?, Option.bind_eq_bind, Option.bind_some]
          cases decoded : rest.mapM text? with
          | none =>
              have apart : ∀ texts : List Text, rest ≠ texts.map text := fun texts same =>
                Option.some_ne_none texts ((ih.mpr same).symm.trans decoded)
              cases texts <;> simp [apart]
          | some found =>
              have same : ∀ texts : List Text, rest = texts.map text ↔ found = texts :=
                fun texts => by rw [← ih, decoded, Option.some_inj]
              cases texts <;> simp [same]
      | undecodable bytes =>
          cases texts <;> simp [List.mapM_cons, text?]

end EntryName

namespace Node

mutual

/-- Whether the directories at and below a node have proper names, and none of them twice. -/
def isSound : Node → Bool
  | .directory entries => areSound entries
  | .file _ => true

/-- Whether entries have proper names, and none of them twice, and what is below them too. -/
def areSound : List (EntryName × Node) → Bool
  | [] => true
  | (name, node) :: rest =>
      name.isProper && (rest.lookup name).isNone && isSound node && areSound rest

end

theorem areSound_cons {name : EntryName} {node : Node} {rest : Entries} :
    areSound ((name, node) :: rest) = true ↔
      (name.isProper ∧ rest.lookup name = none) ∧ node.isSound ∧ areSound rest := by
  simp only [areSound, Bool.and_eq_true, Option.isNone_iff_eq_none, and_assoc]

theorem isSound_of_lookup {entries : Entries} (sound : areSound entries) {name : EntryName}
    {node : Node} (found : entries.lookup name = some node) : node.isSound := by
  induction entries with
  | nil => cases found
  | cons entry rest ih =>
      obtain ⟨other, inner⟩ := entry
      obtain ⟨_, here, later⟩ := areSound_cons.mp sound
      rw [List.lookup_cons] at found
      split at found
      · cases found
        exact here
      · exact ih later found

theorem isSound_of_at? {node inner : Node} (sound : node.isSound) {names : Location}
    (found : node.at? names = some inner) : inner.isSound := by
  induction names generalizing node with
  | nil =>
      cases found
      exact sound
  | cons name rest ih =>
      cases node with
      | file contents => cases found
      | directory entries =>
          obtain ⟨child, isChild, below⟩ := Option.bind_eq_some_iff.mp found
          exact ih (isSound_of_lookup sound isChild) below

mutual

theorem at?_of_mem_descendants : ∀ {node : Node}, node.isSound →
    ∀ {texts : Location} {inner : Node},
    (texts.map EntryName.text, inner) ∈ node.descendants →
      texts ≠ [] ∧ node.at? texts = some inner ∧ ∀ name ∈ texts, FileSystem.isEntryName name
  | .file _, _, _, _, member => nomatch member
  | .directory entries, sound, texts, inner, member => by
      obtain ⟨name, rest, node, rfl, found, below, named⟩ :=
        lookup_of_mem_descendantsOf (show areSound entries from sound) member
      refine ⟨List.cons_ne_nil name rest, ?_, named⟩
      rw [at?, child?, found, Option.bind_some, below]

theorem lookup_of_mem_descendantsOf : ∀ {entries : List (EntryName × Node)}, areSound entries →
    ∀ {texts : Location} {inner : Node}, (texts.map EntryName.text, inner) ∈ descendantsOf entries →
      ∃ name rest node, texts = name :: rest ∧ entries.lookup (.text name) = some node ∧
        node.at? rest = some inner ∧ ∀ name ∈ texts, FileSystem.isEntryName name
  | [], _, _, _, member => nomatch member
  | (first, node) :: others, sound, texts, inner, member => by
      obtain ⟨⟨named, unique⟩, here, later⟩ := areSound_cons.mp sound
      rw [descendantsOf, List.cons_append] at member
      rcases List.mem_cons.mp member with isNode | member
      · obtain ⟨same, rfl⟩ := Prod.mk.inj isNode
        obtain ⟨name, rfl, rfl⟩ := List.map_eq_singleton_iff.mp same
        exact ⟨name, [], inner, rfl, by simp, rfl, List.forall_mem_cons.mpr ⟨named, nofun⟩⟩
      rcases List.mem_append.mp member with below | member
      · obtain ⟨⟨rest, found⟩, isBelow, same⟩ := List.mem_map.mp below
        obtain ⟨sameNames, rfl⟩ := Prod.mk.inj same
        obtain ⟨name, more, rfl, rfl, rfl⟩ := List.map_eq_cons_iff.mp sameNames.symm
        obtain ⟨_, leads, allNamed⟩ := at?_of_mem_descendants here isBelow
        exact ⟨name, more, node, rfl, by simp, leads, List.forall_mem_cons.mpr ⟨named, allNamed⟩⟩
      · obtain ⟨name, rest, other, rfl, found, leads, allNamed⟩ :=
          lookup_of_mem_descendantsOf later member
        have apart : (EntryName.text name == first) = false := by
          refine beq_false_of_ne ?_
          rintro rfl
          cases unique.symm.trans found
        refine ⟨name, rest, other, rfl, ?_, leads, allNamed⟩
        rw [List.lookup_cons, apart]
        exact found

end

/-- What has a path is what texts lead to as names. -/
theorem mem_decodable_iff {node inner : Node} {texts : Location} :
    (texts, inner) ∈ node.decodable ↔ (texts.map EntryName.text, inner) ∈ node.descendants := by
  simp only [decodable, List.mem_filterMap, Option.map_eq_some_iff, Prod.exists, Prod.mk.injEq,
    EntryName.mapM_text?_eq_some_iff]
  constructor
  · rintro ⟨_, _, member, _, rfl, rfl, rfl⟩
    exact member
  · intro member
    exact ⟨_, inner, member, texts, rfl, rfl, rfl⟩

end Node

/-- Whether a file system can be on a disk. -/
def FileSystem.isSound (files : FileSystem) : Bool := Node.areSound files.root

/-! ## Paths of entries -/

namespace FileSystem

theorem isEntryName_iff {name : Text} :
    isEntryName name = true ↔ Path.isName name ∧ '/' ∉ name ∧ '\x00' ∉ name ∧
      name.byteLength ≤ nameLimit := by
  simp [isEntryName, and_assoc]

/-- The name of an entry is a relative path of one segment. -/
theorem segments_of_isEntryName {name : Text} (named : isEntryName name) :
    Path.segments name = [name] ∧ ¬ Path.isAbsolute name := by
  obtain ⟨_, noSlash, _, _⟩ := isEntryName_iff.mp named
  refine ⟨Path.segments_of_notMem noSlash, fun absolute => ?_⟩
  rw [Path.isAbsolute, decide_eq_true_eq] at absolute
  exact noSlash (List.mem_of_mem_head? absolute)

/-- The path of an entry leads on from where the path of the directory leads. -/
theorem pathway_join {files : FileSystem} {directory : Path} {location : Location} {name : Text}
    (leads : files.view.pathway [] directory.segments = .ok location)
    (isDirectory : files.view location = some .directory) (named : isEntryName name) :
    files.view.pathway [] (Path.join directory name).segments = .ok (location ++ [name]) := by
  obtain ⟨single, relative⟩ := segments_of_isEntryName named
  obtain ⟨isName, _, _, short⟩ := isEntryName_iff.mp named
  obtain ⟨before, whole, same⟩ := Path.exists_segments_join directory relative
  have outer : files.view.pathway [] before = .ok location := by
    rcases same with same | same
    · rw [← same, leads]
    · rw [same] at leads
      obtain ⟨outer, outward, _, _, rfl⟩ := View.pathway_concat leads
      exact outward
  rw [whole, single, View.pathway_append, outer]
  change files.view.pathway location [name] = _
  rw [View.pathway, isDirectory]
  simp only [if_neg (Nat.not_lt_of_le short), Path.advance_of_isName isName]
  rfl

theorem pathway_foldl_join {files : FileSystem} {directory : Path} {location names : Location}
    (leads : files.view.pathway [] directory.segments = .ok location)
    (named : ∀ name ∈ names, isEntryName name) (present : files.view (location ++ names) ≠ none) :
    files.view.pathway [] (names.foldl Path.join directory).segments = .ok (location ++ names) := by
  induction names generalizing directory location with
  | nil => rwa [List.append_nil]
  | cons name rest ih =>
      obtain ⟨here, later⟩ := List.forall_mem_cons.mp named
      have isDirectory := view_of_append (List.cons_ne_nil name rest) present
      have whole : location ++ name :: rest = location ++ [name] ++ rest := by simp
      rw [whole] at present ⊢
      exact ih (pathway_join leads isDirectory here) later present

/-- A path that goes on with the names of entries ends with the last of them. -/
theorem exists_segments_foldl_join (directory : Path) {names : Location} {last : Text}
    (named : ∀ name ∈ names ++ [last], isEntryName name) :
    ∃ before, ((names ++ [last]).foldl Path.join directory).segments = before ++ [last] := by
  obtain ⟨single, relative⟩ := segments_of_isEntryName (named last (by simp))
  obtain ⟨before, whole, _⟩ :=
    Path.exists_segments_join (names.foldl Path.join directory) relative
  exact ⟨before, by rw [List.foldl_concat, whole, single]⟩

theorem isAbsolute_foldl_join {directory : Path} (absolute : directory.isAbsolute)
    (names : Location) : Path.isAbsolute (names.foldl Path.join directory) := by
  induction names generalizing directory with
  | nil => exact absolute
  | cons name rest ih => exact ih (Path.isAbsolute_join absolute name)

theorem null_notMem_foldl_join {directory : Path} (noNull : '\x00' ∉ directory) {names : Location}
    (named : ∀ name ∈ names, isEntryName name) : '\x00' ∉ names.foldl Path.join directory := by
  induction names generalizing directory with
  | nil => exact noNull
  | cons name rest ih =>
      obtain ⟨here, later⟩ := List.forall_mem_cons.mp named
      obtain ⟨_, _, notHere, _⟩ := isEntryName_iff.mp here
      refine ih ?_ later
      unfold Path.join
      split
      · exact notHere
      · split <;> simp [noNull, notHere]

end FileSystem

/-! ## Collected files -/

/-- A path that names a file by its last segment, and leads there unless it is too long. -/
structure IsFound (files : FileSystem) (path : Path) : Prop where
  absolute : path.isAbsolute
  ends : ∃ before last, path.segments = before ++ [last] ∧ Path.isName last
  isFile : ∃ contents, files.view path.location = some (.file contents)
  leads : path.byteLength < FileSystem.pathLimit → files.view.locate path = .ok path.location

namespace Discovery

variable {files : FileSystem}

theorem isFound_of_isFile {path : Path} (absolute : path.isAbsolute) (isFile : files.isFile path) :
    IsFound files path := by
  obtain ⟨location, contents, leads, holds⟩ := FileSystem.isFile_iff.mp isFile
  have named := View.eq_location_of_locate leads
  exact ⟨absolute, FileSystem.exists_name_of_file leads holds, ⟨contents, named ▸ holds⟩,
    fun _ => named ▸ leads⟩

/-- What is below a directory that is searched, by the names that lead there. -/
theorem exists_of_mem_filesBelow (sound : files.isSound) {directory : Path} {names : Location}
    (member : names ∈ files.filesBelow directory) :
    ∃ location contents, '\x00' ∉ directory ∧
      files.view.pathway [] directory.segments = .ok location ∧
      files.view (location ++ names) = some (.file contents) ∧ names ≠ [] ∧
      ∀ name ∈ names, FileSystem.isEntryName name := by
  unfold FileSystem.filesBelow FileSystem.find? at member
  rw [FileSystem.locate_eq] at member
  cases leads : files.view.locate directory with
  | error error =>
      rw [leads] at member
      cases member
  | ok location =>
      cases here : files.node? location with
      | none =>
          rw [leads] at member
          simp only [Except.map, here] at member
          cases member
      | some node =>
          rw [leads] at member
          simp only [Except.map, here] at member
          obtain ⟨⟨below, inner⟩, isBelow, rfl⟩ := List.mem_map.mp member
          obtain ⟨isBelow, isFile⟩ := List.mem_filter.mp isBelow
          have nodeSound : node.isSound := by
            have rootSound : (Node.directory files.root).isSound := by
              rw [Node.isSound]
              exact sound
            exact Node.isSound_of_at? rootSound here
          obtain ⟨nonempty, found, named⟩ :=
            Node.at?_of_mem_descendants nodeSound (Node.mem_decodable_iff.mp isBelow)
          cases inner with
          | directory entries => cases isFile
          | file contents =>
              unfold View.locate at leads
              split at leads
              · cases leads
              · rename_i noNull
                split at leads
                · cases leads
                · refine ⟨location, contents, by simpa using noNull, leads, ?_, nonempty, named⟩
                  rw [FileSystem.view, FileSystem.node?_append, here, Option.bind_some, found]
                  rfl

theorem isFound_of_mem_filesIn (sound : files.isSound) {directory path : Path}
    (absolute : directory.isAbsolute) (member : path ∈ filesIn files directory) :
    IsFound files path := by
  obtain ⟨names, reachable, rfl⟩ := List.mem_map.mp member
  obtain ⟨location, contents, noNull, leads, isFile, nonempty, named⟩ :=
    exists_of_mem_filesBelow sound (List.mem_filter.mp reachable).1
  have onward := FileSystem.pathway_foldl_join leads named
    (by rw [isFile]; exact Option.some_ne_none _)
  have isNamed : location ++ names = Path.location (names.foldl Path.join directory) :=
    View.eq_locationFrom_of_pathway onward
  refine ⟨FileSystem.isAbsolute_foldl_join absolute names, ?_, ⟨contents, isNamed ▸ isFile⟩,
    fun short => ?_⟩
  · obtain ⟨outer, last, rfl⟩ := (List.eq_nil_or_concat names).resolve_left nonempty
    rw [List.concat_eq_append] at named ⊢
    obtain ⟨before, whole⟩ := FileSystem.exists_segments_foldl_join directory named
    exact ⟨before, last, whole, (FileSystem.isEntryName_iff.mp (named last (by simp))).1⟩
  · have noNull := FileSystem.null_notMem_foldl_join noNull named
    rw [View.locate, if_neg (by simpa using noNull), if_neg (Nat.not_le_of_lt short), onward,
      isNamed]

theorem exists_of_bind_eq_ok {α β ε : Type} {first : Except ε α} {next : α → Except ε β}
    {result : β} (computed : first.bind next = .ok result) :
    ∃ value, first = .ok value ∧ next value = .ok result := by
  cases first with
  | error error => cases computed
  | ok value => exact ⟨value, rfl, computed⟩

/-- Each result of a list of computations that succeed is the result of one of them. -/
theorem exists_of_mem_mapM {α β ε : Type} {compute : α → Except ε β} {items : List α}
    {results : List β} (computed : items.mapM compute = .ok results) {result : β}
    (member : result ∈ results) : ∃ item ∈ items, compute item = .ok result := by
  induction items generalizing results with
  | nil =>
      rw [List.mapM_nil] at computed
      cases computed
      cases member
  | cons item rest ih =>
      rw [List.mapM_cons] at computed
      obtain ⟨here, first, computed⟩ := exists_of_bind_eq_ok computed
      obtain ⟨later, others, computed⟩ := exists_of_bind_eq_ok computed
      cases computed
      rcases List.mem_cons.mp member with rfl | member
      · exact ⟨item, List.mem_cons_self, first⟩
      · obtain ⟨other, among, computes⟩ := ih others member
        exact ⟨other, List.mem_cons_of_mem item among, computes⟩

/-- Computations that succeed one by one succeed together. -/
theorem mapM_eq_ok {α β ε : Type} {compute : α → Except ε β} {items : List α} {results : List β}
    (each : List.Forall₂ (fun item result => compute item = .ok result) items results) :
    items.mapM compute = .ok results := by
  induction each with
  | nil => rfl
  | cons here _ later =>
      rw [List.mapM_cons, here, later]
      rfl

theorem isAbsolute_resolve {base : Path} (absolute : base.isAbsolute) (path : Path) :
    (Path.resolve base path).isAbsolute := by
  unfold Path.resolve
  simp only
  split
  · exact absolute
  · exact Path.isAbsolute_join absolute _

/-- What is collected is one of the files that an argument stands for. -/
theorem exists_of_mem_collect {criteria : Criteria} {paths found : List Path}
    (collected : collect files criteria paths = .ok found) {path : Path} (member : path ∈ found) :
    ∃ argument ∈ paths, ∃ result,
      filesFor? files criteria (Path.resolve criteria.workspace argument) = some result ∧
        path ∈ result := by
  obtain ⟨results, each, ordered⟩ := exists_of_bind_eq_ok collected
  cases ordered
  obtain ⟨among, _⟩ := inOrder_subset_and_increasing results.flatten
  obtain ⟨result, isResult, inside⟩ := List.mem_flatten.mp (among member)
  obtain ⟨argument, isArgument, finds⟩ := exists_of_mem_mapM each isResult
  simp only at finds
  split at finds
  · rename_i given
    cases finds
    exact ⟨argument, isArgument, result, given, inside⟩
  · cases finds

/-- **What is collected is found, and no two of the paths have the same components.** -/
theorem isFound_of_collect (sound : files.isSound) {criteria : Criteria}
    (absolute : criteria.workspace.isAbsolute) {paths found : List Path}
    (collected : collect files criteria paths = .ok found) :
    (∀ path ∈ found, IsFound files path) ∧
      found.Pairwise fun first second => first.components ≠ second.components := by
  constructor
  · intro path member
    obtain ⟨argument, _, result, given, inside⟩ := exists_of_mem_collect collected member
    have argumentAbsolute := isAbsolute_resolve absolute argument
    unfold filesFor? at given
    split at given
    · rename_i isFile
      cases given
      rw [List.mem_singleton.mp inside]
      exact isFound_of_isFile argumentAbsolute isFile
    · split at given
      · cases given
        exact isFound_of_mem_filesIn sound argumentAbsolute (List.mem_filter.mp inside).1
      · cases given
  · obtain ⟨results, _, ordered⟩ := exists_of_bind_eq_ok collected
    cases ordered
    exact (inOrder_subset_and_increasing results.flatten).2.imp And.right

/-- What each path stands for is collected, if it is in order already. -/
theorem collect_eq_flatten {criteria : Criteria} {paths : List Path} {results : List (List Path)}
    (each : List.Forall₂
      (fun path found =>
        filesFor? files criteria (Path.resolve criteria.workspace path) = some found)
      paths results)
    (ordered : results.flatten.Pairwise fun first second =>
      Path.componentsLe first.components second.components ∧
        first.components ≠ second.components) :
    collect files criteria paths = .ok results.flatten := by
  have inTurn (compute : Path → Except Path (List Path))
      (computes : ∀ path found,
        filesFor? files criteria (Path.resolve criteria.workspace path) = some found →
          compute path = .ok found) :
      ((paths.mapM compute).bind fun found => .ok (inOrder found.flatten)) =
        .ok results.flatten := by
    rw [mapM_eq_ok (each.imp computes)]
    exact congrArg Except.ok (inOrder_eq_self ordered)
  refine inTurn _ fun path found finds => ?_
  simp only [finds]

end Discovery

end ComponentTsx
