import ComponentTsx.FileSystem

/-!
# Operations on a file system

A file system lies on a device, which can refuse an operation for reasons of its own:
the disk is full or broken, a quota is used up, permissions are missing.  A device
is given by its answers to what is asked of it, and the answers can be any.  They can
be restrictions, such as permissions and limits of size, which hang on the path only
and not on what the file system holds.  The reliable device refuses nothing.

Reading and making a directory fail as a whole or are done.  Writing makes or
empties the file first, and the device can break it off after that: the file then
holds what the device took of the text.

Where several operations follow each other, what was done before one of them
failed stays done.
-/

namespace ComponentTsx

set_option autoImplicit false

/-! ## Devices -/

/-- What a device can refuse. -/
inductive Operation where
  | read
  /-- Finding out what a path leads to. -/
  | inspect
  | makeDirectory
  | write
deriving DecidableEq, Repr

/-- What a device answers. -/
structure Device where
  /-- Why an operation on a path is not begun, if it is refused. -/
  refusal? : Operation → FileSystem → Path → Option Fault
  /-- How many bytes the file at a path can take, and why no more, if there is a limit. -/
  room? : FileSystem → Path → Option (Nat × Fault)

/-- What is refused for a path, whatever the file system holds. -/
structure Restrictions where
  /-- Why the file at a path is not read, if it is not. -/
  read? : Path → Option Fault := fun _ => none
  /-- Why the file at a path is not begun to be written, if it is not. -/
  write? : Path → Option Fault := fun _ => none
  /-- How many bytes the file at a path can take, and why no more, if there is a limit. -/
  room? : Path → Option (Nat × Fault) := fun _ => none

namespace Device

/-- The device that has some restrictions and refuses nothing else. -/
def ofRestrictions (restrictions : Restrictions) : Device where
  refusal? := fun operation _ path =>
    match operation with
    | .read => restrictions.read? path
    | .write => restrictions.write? path
    | .inspect | .makeDirectory => none
  room? := fun _ path => restrictions.room? path

/-- The device that refuses nothing and has room for everything. -/
def reliable : Device := .ofRestrictions {}

/-- The failure of an operation that a device does not begin. -/
def permit (device : Device) (operation : Operation) (files : FileSystem) (path : Path) :
    Except FileError Unit :=
  match device.refusal? operation files path with
  | some fault => .error (.device fault)
  | none => .ok ()

@[simp] theorem permit_reliable (operation : Operation) (files : FileSystem) (path : Path) :
    reliable.permit operation files path = .ok () := by
  cases operation <;> rfl

end Device

/-- The first bytes of a text, which are no text themselves if they end inside a character. -/
def Contents.firstBytes (text : Text) (count : Nat) : Contents :=
  match text.takeBytes? count with
  | some part => .text part
  | none => .undecodable (text.utf8.take count)

/-- What goes into a file of a text under a limit, and why not all of it. -/
def Contents.within (limit : Option (Nat × Fault)) (text : Text) : Contents × Option FileError :=
  match limit with
  | some (room, fault) =>
      if room < text.byteLength then (.firstBytes text room, some (.device fault))
      else (.text text, none)
  | none => (.text text, none)

/-- What a device takes of a text for a file, and why it does not take all of it. -/
def Device.accepted (device : Device) (files : FileSystem) (path : Path) (text : Text) :
    Contents × Option FileError :=
  Contents.within (device.room? files path) text

namespace FileSystem

/-! ## One operation -/

section Operations

variable (files : FileSystem) (path : Path)

/-- The text of the file that a path leads to. -/
def read (device : Device := .reliable) : Except FileError Text := do
  device.permit .read files path
  match (← files.locate path).node with
  | none => .error .notFound
  | some (.directory _) => .error .isDirectory
  | some (.file (.undecodable _)) => .error .undecodable
  | some (.file (.text text)) => .ok text

/-- The file system with a directory where there was nothing. -/
def makeDirectory (device : Device := .reliable) : Except FileError FileSystem := do
  device.permit .makeDirectory files path
  let place ← files.locate path
  match place.node with
  | some _ => .error .alreadyExists
  | none => .ok (files.put place.location (.directory []))

/-- The file system with a directory that may have been there before. -/
def ensureDirectory (device : Device := .reliable) : Except FileError FileSystem :=
  match files.makeDirectory path device with
  | .ok changed => .ok changed
  | .error error =>
      match device.permit .inspect files path with
      | .ok () => if files.isDirectory path then .ok files else .error error
      | .error _ => .error error

/-- The file system with other contents in the file that a path leads to, which need not exist. -/
def store (contents : Contents) : Except FileError FileSystem := do
  let place ← files.locate path
  if place.node.any Node.isDirectory then .error .isDirectory
  else .ok (files.put place.location (.file contents))

end Operations

/-! ## Several changes -/

/-- A file system after some operations, and the failure of the last one, if it failed. -/
structure Outcome where
  files : FileSystem
  error : Option FileError := none

/-- Writes a text to the file that a path leads to, as far as the device takes it. -/
def write (files : FileSystem) (path : Path) (text : Text) (device : Device := .reliable) :
    Outcome :=
  match device.permit .write files path with
  | .error error => ⟨files, some error⟩
  | .ok () =>
      let (contents, error) := device.accepted files path text
      match files.store path contents with
      | .ok changed => ⟨changed, error⟩
      | .error error => ⟨files, some error⟩

/-- The outcome of an operation that follows others, unless one of those failed. -/
def Outcome.andThen (outcome : Outcome)
    (operation : FileSystem → Except FileError FileSystem) : Outcome :=
  match outcome.error with
  | some _ => outcome
  | none =>
      match operation outcome.files with
      | .ok changed => ⟨changed, none⟩
      | .error error => ⟨outcome.files, some error⟩

/-- The outcome of writing a text after other operations, unless one of those failed. -/
def Outcome.andWrite (outcome : Outcome) (path : Path) (text : Text)
    (device : Device := .reliable) : Outcome :=
  match outcome.error with
  | some _ => outcome
  | none => outcome.files.write path text device

/--
Makes the directory that some segments lead to, the last segment first, and those on the way to it
as far as they are missing.
-/
def makeFromLast (files : FileSystem) (segments : List Text) (device : Device := .reliable) :
    Outcome :=
  match segments with
  | [] => ⟨files, none⟩
  | segment :: outer =>
      if Path.isVoid segment then files.makeFromLast outer device
      else
        let path := Path.ofSegments (segment :: outer).reverse
        match files.ensureDirectory path device with
        | .ok changed => ⟨changed, none⟩
        | .error .notFound =>
            (files.makeFromLast outer device).andThen (·.ensureDirectory path device)
        | .error error => ⟨files, some error⟩

/-- Makes the directory that a path leads to, and those on the way to it. -/
def makeDirectories (files : FileSystem) (path : Path) (device : Device := .reliable) : Outcome :=
  files.makeFromLast path.segments.reverse device

/-- Makes the directory in which the last component of a path lies, and those on the way to it. -/
def makeParents (files : FileSystem) (path : Path) (device : Device := .reliable) : Outcome :=
  files.makeFromLast ((path.segments.reverse.dropWhile Path.isVoid).drop 1) device

end FileSystem

end ComponentTsx
