import ComponentTsx.Path

/-!
# File systems

A file system is a tree of directories and files below a root directory.  A
location is the list of names that lead to a place from the root.  There are no
links, so a path leads to one location: a name steps down, two points step up,
and every step needs a directory to start from.

A path is a text, so what has a name that is no UTF-8, or lies below such a name, has
no path.  It is in the tree, but it is neither found nor changed.

Names and paths are limited in length, and a path must not contain the null
character.  What breaks a limit leads nowhere.
-/

namespace ComponentTsx

set_option autoImplicit false

/-- The names that lead to a place from the root. -/
abbrev Location := List Text

/-- What a file holds: a text, or bytes that are no UTF-8. -/
inductive Contents where
  | text (text : Text)
  | undecodable (bytes : List UInt8)
deriving DecidableEq, Repr

/-- The text of a file that holds one. -/
def Contents.text? : Contents → Option Text
  | .text written => some written
  | .undecodable _ => none

/-- The name of an entry: a text, or bytes that are no UTF-8. -/
inductive EntryName where
  | text (name : Text)
  | undecodable (bytes : List UInt8)
deriving DecidableEq, Repr

instance : Coe Text EntryName := ⟨EntryName.text⟩

/-- The text of a name that is one. -/
def EntryName.text? : EntryName → Option Text
  | .text name => some name
  | .undecodable _ => none

/-- What a name can stand for: a directory with its entries, or a file. -/
inductive Node where
  | directory (entries : List (EntryName × Node))
  | file (contents : Contents)

/-- The entries of a directory: names, each with what it stands for. -/
abbrev Entries := List (EntryName × Node)

/-- Why a device refuses something: the words of the system for it, and its number. -/
structure Fault where
  words : String
  number : Nat
deriving DecidableEq, Repr

/-- Why an operation on a file system fails. -/
inductive FileError where
  | notFound
  | alreadyExists
  | notDirectory
  | isDirectory
  /-- A name or the whole path is too long. -/
  | nameTooLong
  /-- The path contains the null character. -/
  | nullInPath
  | undecodable
  /-- The device refuses the operation, or breaks it off. -/
  | device (fault : Fault)
deriving DecidableEq, Repr

/-- The failure in words. -/
def FileError.message : FileError → String
  | notFound => "No such file or directory (os error 2)"
  | alreadyExists => "File exists (os error 17)"
  | notDirectory => "Not a directory (os error 20)"
  | isDirectory => "Is a directory (os error 21)"
  | nameTooLong => "File name too long (os error 36)"
  | nullInPath => "file name contained an unexpected NUL byte"
  | undecodable => "stream did not contain valid UTF-8"
  | device fault => fault.words ++ " (os error " ++ toString fault.number ++ ")"

/-! ## Entries and nodes -/

namespace Entries

/-- The entries with another node for a name, made of the node that it stood for, if any. -/
def alter (name : EntryName) (change : Option Node → Node) : Entries → Entries
  | [] => [(name, change none)]
  | (other, node) :: rest =>
      if name == other then (other, change (some node)) :: rest
      else (other, node) :: alter name change rest

/-- An altered name stands for what was made of its node. -/
theorem lookup_alter_self (name : EntryName) (change : Option Node → Node) (entries : Entries) :
    (alter name change entries).lookup name = some (change (entries.lookup name)) := by
  induction entries with
  | nil => simp [alter]
  | cons entry rest ih =>
      obtain ⟨other, node⟩ := entry
      cases h : name == other <;> simp [alter, List.lookup_cons, h, ih]

/-- Altering a name leaves all other names alone. -/
theorem lookup_alter_of_ne {name queried : EntryName} (h : queried ≠ name)
    (change : Option Node → Node) (entries : Entries) :
    (alter name change entries).lookup queried = entries.lookup queried := by
  induction entries with
  | nil => simp [alter, List.lookup_cons, beq_false_of_ne h]
  | cons entry rest ih =>
      obtain ⟨other, node⟩ := entry
      cases hname : name == other with
      | false => simp [alter, List.lookup_cons, hname, ih]
      | true =>
          have hother : (queried == other) = false := by
            rw [← eq_of_beq hname]
            exact beq_false_of_ne h
          simp [alter, List.lookup_cons, hname, hother]

end Entries

namespace Node

/-- Whether a node is a directory. -/
def isDirectory : Node → Bool
  | directory _ => true
  | file _ => false

/-- What a file holds. -/
def contents? : Node → Option Contents
  | directory _ => none
  | file contents => some contents

/-- What a name stands for in a node. -/
def child? (node : Node) (name : Text) : Option Node :=
  match node with
  | directory entries => entries.lookup (.text name)
  | file _ => none

/-- The node that names lead to. -/
def at? (node : Node) : Location → Option Node
  | [] => some node
  | name :: rest => (node.child? name).bind (·.at? rest)

/--
The node with another one where names lead.  Directories that are missing on the way are made, and a
file on the way leaves everything as it is.
-/
def put (node replacement : Node) : Location → Node
  | [] => replacement
  | name :: rest =>
      match node with
      | directory entries =>
          let change := fun (child : Option Node) =>
            (child.getD (directory [])).put replacement rest
          directory (Entries.alter name change entries)
      | file contents => file contents

/-- Putting a node changes nothing where neither location leads on to the other. -/
theorem at?_put_of_not_isPrefix (replacement : Node) {names queried : Location}
    (hbelow : ¬ names <+: queried) (habove : ¬ queried <+: names) (node : Node) :
    (node.put replacement names).at? queried = node.at? queried := by
  induction names generalizing node queried with
  | nil => exact absurd List.nil_prefix hbelow
  | cons name rest ih =>
      cases node with
      | file contents => rfl
      | directory entries =>
          cases queried with
          | nil => exact absurd List.nil_prefix habove
          | cons first others =>
              simp only [put, at?, child?]
              by_cases hname : first = name
              · subst hname
                rw [Entries.lookup_alter_self, Option.bind_some,
                  ih (by simpa using hbelow) (by simpa using habove)]
                cases hchild : entries.lookup (.text first) with
                | some child => rfl
                | none =>
                    cases others with
                    | nil => simp at habove
                    | cons second later => rfl
              · rw [Entries.lookup_alter_of_ne (mt EntryName.text.inj hname)]

mutual

/-- All nodes below a node, each with the names that lead to it. -/
def descendants : Node → List (List EntryName × Node)
  | .directory entries => descendantsOf entries
  | .file _ => []

/-- All nodes at and below some entries, each with the names that lead to it. -/
def descendantsOf : List (EntryName × Node) → List (List EntryName × Node)
  | [] => []
  | (name, node) :: rest =>
      ([name], node) :: (descendants node).map (fun (names, inner) => (name :: names, inner)) ++
        descendantsOf rest

end

/-- The nodes below a node that have paths, each with the texts that lead to it. -/
def decodable (node : Node) : List (Location × Node) :=
  node.descendants.filterMap fun (names, inner) => (names.mapM EntryName.text?).map (·, inner)

end Node

/-- A file system, by the entries of its root directory. -/
structure FileSystem where
  root : Entries := []

namespace FileSystem

/-- The node at a location. -/
def node? (files : FileSystem) (location : Location) : Option Node :=
  (Node.directory files.root).at? location

/-- The file system with a node at a location other than the root. -/
def put (files : FileSystem) (location : Location) (node : Node) : FileSystem :=
  match location with
  | [] => files
  | name :: rest =>
      ⟨Entries.alter name (fun child => (child.getD (.directory [])).put node rest) files.root⟩

/-- Whether a location has a directory. -/
def isDirectoryAt (files : FileSystem) (location : Location) : Bool :=
  (files.node? location).any Node.isDirectory

/-- What a file at a location holds. -/
def contents? (files : FileSystem) (location : Location) : Option Contents :=
  (files.node? location).bind Node.contents?

/-- All nodes of the file system that have locations, but for the root. -/
def nodes (files : FileSystem) : List (Location × Node) := (Node.directory files.root).decodable

/-! ## Paths -/

/-- The most bytes that a name can have. -/
def nameLimit : Nat := 255

/-- Paths have fewer bytes than this. -/
def pathLimit : Nat := 4096

/-- Where a path leads, and the node there, if there is one. -/
structure Place where
  location : Location
  node : Option Node

/--
Where the segments of a path lead from a node.  The trail is how the node was reached: each name,
the last one first, with the entries of the directory that it was looked up in.
-/
def follow (trail : List (Text × Entries)) (here : Option Node) :
    List Text → Except FileError Place
  | [] => .ok ⟨(trail.map (·.1)).reverse, here⟩
  | segment :: rest =>
      match here with
      | none => .error .notFound
      | some (.file _) => .error .notDirectory
      | some (.directory entries) =>
          if Path.isVoid segment then follow trail here rest
          else if segment = ['.', '.'] then
            match trail with
            | [] => follow [] here rest
            | (_, outer) :: earlier => follow earlier (some (.directory outer)) rest
          else if nameLimit < segment.byteLength then .error .nameTooLong
          else follow ((segment, entries) :: trail) (entries.lookup (.text segment)) rest

/-- Where an absolute path leads. -/
def locate (files : FileSystem) (path : Path) : Except FileError Place :=
  if path.contains '\x00' then .error .nullInPath
  else if pathLimit ≤ path.byteLength then .error .nameTooLong
  else follow [] (some (.directory files.root)) path.segments

/-- The node that an absolute path leads to, if there is one. -/
def find? (files : FileSystem) (path : Path) : Option Node :=
  match files.locate path with
  | .ok place => place.node
  | .error _ => none

/-- Whether an absolute path leads to a directory. -/
def isDirectory (files : FileSystem) (path : Path) : Bool :=
  (files.find? path).any Node.isDirectory

/-- Whether an absolute path leads to a file. -/
def isFile (files : FileSystem) (path : Path) : Bool :=
  (files.find? path).any (!·.isDirectory)

/-! ## Files below a directory -/

/--
The names that lead from a directory to each file at any depth below it, if all of them are texts.
-/
def filesBelow (files : FileSystem) (directory : Path) : List (List Text) :=
  match files.find? directory with
  | some node => (node.decodable.filter (!·.2.isDirectory)).map (·.1)
  | none => []

end FileSystem

end ComponentTsx
