import ComponentTsx.Proofs.Path.Location
import Mathlib.Logic.Function.Basic

/-!
# What can be seen of a file system

Nothing in a run depends on the order in which a directory holds its entries.
What counts is what stands at each location: nothing, a directory or a file
(`FileSystem.view`).  Where a path leads is a matter of the view alone
(`locate_eq`), and each operation that succeeds sets one location of it
(`view_put`).
-/

namespace ComponentTsx

set_option autoImplicit false

/-- What stands at a location, apart from what a directory holds. -/
inductive Seen where
  | directory
  | file (contents : Contents)
deriving DecidableEq, Repr

/-- What stands at each location. -/
abbrev View := Location → Option Seen

namespace Node

/-- What can be seen of a node. -/
def seen : Node → Seen
  | directory _ => .directory
  | file contents => .file contents

theorem at?_append (node : Node) (first second : Location) :
    node.at? (first ++ second) = (node.at? first).bind (·.at? second) := by
  induction first generalizing node with
  | nil => rfl
  | cons name rest ih =>
      simp only [List.cons_append, at?, Option.bind_assoc, ih]

theorem at?_file (contents : Contents) {location : Location} (below : location ≠ []) :
    (file contents).at? location = none := by
  cases location with
  | nil => exact absurd rfl below
  | cons name rest => rfl

/-- Only a directory has something below it. -/
theorem seen_of_at? {node found : Node} {location : Location} (below : location ≠ [])
    (present : node.at? location = some found) : node.seen = .directory := by
  cases node with
  | directory entries => rfl
  | file contents =>
      rw [at?_file contents below] at present
      cases present

/-- A node that is put into a directory is there, with all that it holds. -/
theorem at?_put_append {node replacement : Node} {names : Location} {name : Text}
    (parent : (node.at? names).map seen = some .directory) (more : Location) :
    (node.put replacement (names ++ [name])).at? (names ++ name :: more) =
      replacement.at? more := by
  induction names generalizing node with
  | nil =>
      cases node with
      | file contents => cases parent
      | directory entries =>
          simp only [List.nil_append, put, at?, child?, Entries.lookup_alter_self,
            Option.bind_some]
  | cons first rest ih =>
      cases node with
      | file contents => cases parent
      | directory entries =>
          simp only [at?, child?] at parent
          cases found : entries.lookup (.text first) with
          | none =>
              rw [found] at parent
              cases parent
          | some child =>
              rw [found, Option.bind_some] at parent
              simp only [List.cons_append, put, at?, child?, Entries.lookup_alter_self,
                Option.bind_some, found, Option.getD_some]
              exact ih parent

/-- The directories on the way to a node that is put stay directories. -/
theorem seen_at?_put {node : Node} (replacement : Node) {above names : Location}
    (present : (node.at? above).map seen = some .directory) (below : names ≠ []) :
    ((node.put replacement (above ++ names)).at? above).map seen = some .directory := by
  induction above generalizing node with
  | nil =>
      cases node with
      | file contents => cases present
      | directory entries =>
          cases names with
          | nil => exact absurd rfl below
          | cons name rest => rfl
  | cons first rest ih =>
      cases node with
      | file contents => cases present
      | directory entries =>
          simp only [at?, child?] at present
          cases found : entries.lookup (.text first) with
          | none =>
              rw [found] at present
              cases present
          | some child =>
              rw [found, Option.bind_some] at present
              simp only [List.cons_append, put, at?, child?, Entries.lookup_alter_self,
                Option.bind_some, found, Option.getD_some]
              exact ih present

end Node

namespace FileSystem

/-- What can be seen of a file system. -/
def view (files : FileSystem) : View := fun location => (files.node? location).map Node.seen

variable {files : FileSystem}

theorem view_nil (files : FileSystem) : files.view [] = some .directory := rfl

theorem node?_append (first second : Location) :
    files.node? (first ++ second) = (files.node? first).bind (·.at? second) :=
  Node.at?_append _ first second

/-- Everything lies in a directory. -/
theorem view_of_append {above below : Location} (nonempty : below ≠ [])
    (present : files.view (above ++ below) ≠ none) : files.view above = some .directory := by
  rw [view, node?_append] at present
  rw [view]
  cases found : files.node? above with
  | none =>
      rw [found] at present
      exact absurd rfl present
  | some node =>
      rw [found, Option.bind_some, ne_eq, Option.map_eq_none_iff] at present
      obtain ⟨inner, isInner⟩ := Option.ne_none_iff_exists'.mp present
      exact congrArg some (Node.seen_of_at? nonempty isInner)

theorem view_dropLast {location : Location} (present : files.view location ≠ none)
    (below : location ≠ []) : files.view location.dropLast = some .directory := by
  refine view_of_append (List.cons_ne_nil (location.getLast below) []) ?_
  rwa [List.dropLast_append_getLast]

/-- A step up out of a directory leads to a directory. -/
theorem view_dropLast_of_directory {location : Location}
    (directory : files.view location = some .directory) :
    files.view location.dropLast = some .directory := by
  by_cases atRoot : location = []
  · rw [atRoot]
    exact view_nil files
  · exact view_dropLast (by rw [directory]; exact Option.some_ne_none _) atRoot

/-! ## Setting a location -/

theorem root_put {location : Location} (below : location ≠ []) (node : Node) :
    Node.directory (files.put location node).root =
      (Node.directory files.root).put node location := by
  cases location with
  | nil => exact absurd rfl below
  | cons name rest => rfl

/-- **A node without others below it sets its location, and nothing else.** -/
theorem view_put {location : Location} {name : Text} {node : Node}
    (parent : files.view location = some .directory)
    (free : files.view (location ++ [name]) ≠ some .directory)
    (empty : ∀ names, names ≠ [] → node.at? names = none) :
    (files.put (location ++ [name]) node).view =
      Function.update files.view (location ++ [name]) (some node.seen) := by
  have below : location ++ [name] ≠ [] := by simp
  funext queried
  rw [view, node?, root_put below]
  by_cases within : location ++ [name] <+: queried
  · obtain ⟨more, rfl⟩ := within
    rw [List.append_assoc, List.cons_append, List.nil_append, Node.at?_put_append parent more]
    cases more with
    | nil =>
        rw [Function.update_self]
        rfl
    | cons first rest =>
        have notSame : location ++ name :: first :: rest ≠ location ++ [name] := by simp
        rw [empty _ (List.cons_ne_nil first rest), Option.map_none,
          Function.update_of_ne notSame]
        by_contra present
        refine free (view_of_append (List.cons_ne_nil first rest) ?_)
        rw [List.append_assoc]
        exact Ne.symm present
  · have notSame : queried ≠ location ++ [name] := by
      rintro rfl
      exact within List.prefix_rfl
    rw [Function.update_of_ne notSame]
    by_cases onTheWay : queried <+: location ++ [name]
    · obtain ⟨names, whole⟩ := onTheWay
      have nonempty : names ≠ [] := by
        rintro rfl
        exact notSame (List.append_nil queried ▸ whole)
      have directory : files.view queried = some .directory := by
        obtain rfl | ⟨inner, last, rfl⟩ := List.eq_nil_or_concat names
        · exact absurd rfl nonempty
        · rw [List.concat_eq_append, ← List.append_assoc] at whole
          obtain ⟨rfl, _⟩ := List.append_inj' whole rfl
          by_cases atParent : inner = []
          · rwa [atParent, List.append_nil] at parent
          · exact view_of_append atParent (by rw [parent]; exact Option.some_ne_none _)
      rw [← whole, Node.seen_at?_put node directory nonempty, directory]
    · rw [Node.at?_put_of_not_isPrefix node within onTheWay]
      rfl

end FileSystem

/-! ## Paths -/

/-- Where segments lead from a location, through directories that are there. -/
def View.pathway (view : View) (start : Location) : List Text → Except FileError Location
  | [] => .ok start
  | segment :: rest =>
      match view start with
      | none => .error .notFound
      | some (.file _) => .error .notDirectory
      | some .directory =>
          if FileSystem.nameLimit < segment.byteLength then .error .nameTooLong
          else view.pathway (Path.advance start segment) rest

theorem View.pathway_append (view : View) (start : Location) (first second : List Text) :
    view.pathway start (first ++ second) =
      (view.pathway start first).bind (view.pathway · second) := by
  induction first generalizing start with
  | nil => rfl
  | cons segment rest ih =>
      rw [List.cons_append, pathway, pathway]
      split
      · rfl
      · rfl
      · split
        · rfl
        · exact ih _

/-- One more segment leads on from a directory. -/
theorem View.pathway_concat {view : View} {start found : Location} {before : List Text}
    {last : Text} (leads : view.pathway start (before ++ [last]) = .ok found) :
    ∃ outer, view.pathway start before = .ok outer ∧ view outer = some .directory ∧
      last.byteLength ≤ FileSystem.nameLimit ∧ found = Path.advance outer last := by
  rw [pathway_append] at leads
  cases outward : view.pathway start before with
  | error error =>
      rw [outward] at leads
      cases leads
  | ok outer =>
      rw [outward] at leads
      change view.pathway outer [last] = .ok found at leads
      rw [pathway] at leads
      split at leads
      · cases leads
      · cases leads
      · rename_i directory
        split at leads
        · cases leads
        · rename_i short
          cases leads
          exact ⟨outer, rfl, directory, Nat.le_of_not_lt short, rfl⟩

/-- Where a path leads. -/
def View.locate (view : View) (path : Path) : Except FileError Location :=
  if path.contains '\x00' then .error .nullInPath
  else if FileSystem.pathLimit ≤ path.byteLength then .error .nameTooLong
  else view.pathway [] path.segments

theorem View.eq_locationFrom_of_pathway {view : View} {start found : Location}
    {segments : List Text} (leads : view.pathway start segments = .ok found) :
    found = Path.locationFrom start segments := by
  induction segments generalizing start with
  | nil =>
      cases leads
      rfl
  | cons segment rest ih =>
      rw [pathway] at leads
      split at leads
      · cases leads
      · cases leads
      · split at leads
        · cases leads
        · exact ih leads

theorem View.eq_location_of_locate {view : View} {path : Path} {found : Location}
    (leads : view.locate path = .ok found) : found = path.location := by
  unfold locate at leads
  split at leads
  · cases leads
  · split at leads
    · cases leads
    · exact eq_locationFrom_of_pathway leads

namespace FileSystem

variable {files : FileSystem}

/-- Where a trail has led. -/
def trailLocation (trail : List (Text × Entries)) : Location := (trail.map (·.1)).reverse

/-- Whether a trail holds the entries of the directories that it led through. -/
def IsTrail (files : FileSystem) : List (Text × Entries) → Prop
  | [] => True
  | (_, entries) :: earlier =>
      files.node? (trailLocation earlier) = some (.directory entries) ∧ files.IsTrail earlier

theorem not_nameLimit_lt_of_not_isName {segment : Text} (unnamed : ¬ Path.isName segment) :
    ¬ nameLimit < segment.byteLength := by
  have cases : segment = [] ∨ segment = ['.'] ∨ segment = ['.', '.'] := by
    simpa [Path.isName, Path.isVoid, imp_iff_not_or, or_assoc] using unnamed
  rcases cases with rfl | rfl | rfl <;> decide

/-- Where segments lead can be seen. -/
theorem follow_eq {trail : List (Text × Entries)} (isTrail : files.IsTrail trail)
    (segments : List Text) :
    follow trail (files.node? (trailLocation trail)) segments =
      (files.view.pathway (trailLocation trail) segments).map
        fun location => ⟨location, files.node? location⟩ := by
  induction segments generalizing trail with
  | nil => rfl
  | cons segment rest ih =>
      rw [follow.eq_def, View.pathway, view]
      cases here : files.node? (trailLocation trail) with
      | none => rfl
      | some node =>
          cases node with
          | file contents => rfl
          | directory entries =>
              simp only [Option.map_some, Node.seen]
              by_cases void : Path.isVoid segment
              · have short := not_nameLimit_lt_of_not_isName
                  (mt Path.not_isVoid_of_isName (not_not.mpr void))
                rw [if_pos void, if_neg short, Path.advance_of_isVoid void, ← here]
                exact ih isTrail
              rw [if_neg void, Path.advance, if_neg void]
              by_cases stepsUp : segment = ['.', '.']
              · have short : ¬ nameLimit < segment.byteLength := by
                  rw [stepsUp]
                  decide
                rw [if_pos stepsUp, if_pos stepsUp, if_neg short]
                cases trail with
                | nil =>
                    rw [← here]
                    exact ih isTrail
                | cons last earlier =>
                    obtain ⟨name, outer⟩ := last
                    obtain ⟨isOuter, isEarlier⟩ := isTrail
                    have up : (trailLocation ((name, outer) :: earlier)).dropLast =
                        trailLocation earlier := by
                      simp [trailLocation]
                    rw [up]
                    simp only [← isOuter]
                    exact ih isEarlier
              · rw [if_neg stepsUp, if_neg stepsUp]
                split
                · rfl
                · have down : files.node? (trailLocation trail ++ [segment]) =
                      entries.lookup (.text segment) := by
                    rw [node?_append, here, Option.bind_some]
                    simp [Node.at?, Node.child?]
                  have deeper : trailLocation ((segment, entries) :: trail) =
                      trailLocation trail ++ [segment] := by
                    simp [trailLocation]
                  rw [← down, ← deeper]
                  exact ih ⟨here, isTrail⟩

/-- **Where a path leads can be seen.** -/
theorem locate_eq (files : FileSystem) (path : Path) :
    files.locate path =
      (files.view.locate path).map fun location => ⟨location, files.node? location⟩ := by
  unfold locate View.locate
  split
  · rfl
  · split
    · rfl
    · have isTrail : files.IsTrail [] := trivial
      exact follow_eq isTrail path.segments

/-! ## Operations -/

theorem isFile_iff {path : Path} :
    files.isFile path = true ↔ ∃ location contents,
      files.view.locate path = .ok location ∧ files.view location = some (.file contents) := by
  rw [isFile, find?, locate_eq]
  cases found : files.view.locate path with
  | error error => simp [Except.map]
  | ok location =>
      simp only [Except.map, view, Except.ok.injEq]
      cases present : files.node? location with
      | none => simp [present]
      | some node => cases node <;> simp [present, Node.isDirectory, Node.seen]

/-- A path that leads to a file ends with its name. -/
theorem exists_name_of_file {path : Path} {location : Location} {contents : Contents}
    (leads : files.view.locate path = .ok location)
    (isFile : files.view location = some (.file contents)) :
    ∃ before last, path.segments = before ++ [last] ∧ Path.isName last := by
  obtain ⟨before, last, whole, _⟩ := Path.exists_segments_append path
  refine ⟨before, last, whole, ?_⟩
  have leads : files.view.pathway [] (before ++ [last]) = .ok location := by
    unfold View.locate at leads
    split at leads
    · cases leads
    · split at leads
      · cases leads
      · rwa [whole] at leads
  obtain ⟨outer, _, directory, _, rfl⟩ := View.pathway_concat leads
  by_contra unnamed
  have isDirectory : files.view (Path.advance outer last) = some .directory := by
    rw [Path.advance]
    split
    · exact directory
    · rename_i notVoid
      have stepsUp : last = ['.', '.'] := by
        simpa [Path.isName, notVoid] using unnamed
      rw [if_pos stepsUp]
      exact view_dropLast_of_directory directory
  cases isFile.symm.trans isDirectory

end FileSystem

end ComponentTsx
