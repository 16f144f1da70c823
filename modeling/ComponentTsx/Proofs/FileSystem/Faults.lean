import ComponentTsx.Proofs.FileSystem.Making

/-!
# What a device leaves undone

What a device lets succeed is done as on the reliable device (`read_of_device`,
`ensureDirectory_of_device`).  What it refuses leaves the file system alone.  A text
that it breaks off has been stored as far as the device took it, so the file holds a
first part of the text and not all of it (`write_cases`, `firstBytes_isPart`).

A disk of limited size is such a device (`Device.ofCapacity`).  So is one with
restrictions.  It makes directories as the reliable device does
(`makeParents_ofRestrictions`), and what it accepts of a text is the same whatever the
file system holds.
-/

namespace ComponentTsx

set_option autoImplicit false

/-! ## Parts of texts -/

namespace Contents

/-- The bytes of a file. -/
def bytes : Contents → List UInt8
  | text written => written.utf8
  | undecodable bytes => bytes

/-- Whether a file holds a first part of a text, and not all of it. -/
structure IsPart (contents : Contents) (text : Text) : Prop where
  begins : contents.bytes <+: text.utf8
  breaks : contents.bytes.length < text.byteLength

theorem bytes_firstBytes (text : Text) (count : Nat) :
    (firstBytes text count).bytes = text.utf8.take count := by
  rw [firstBytes]
  split
  · rename_i part taken
    obtain ⟨rest, rfl⟩ := Text.exists_append_of_takeBytes? taken
    rw [bytes, Text.utf8_append, ← Text.byteLength_of_takeBytes? taken, ← Text.length_utf8,
      List.take_left]
  · rfl

theorem firstBytes_isPart {text : Text} {count : Nat} (breaks : count < text.byteLength) :
    (firstBytes text count).IsPart text := by
  refine ⟨?_, ?_⟩ <;> rw [bytes_firstBytes]
  · exact List.take_prefix count _
  · rw [List.length_take]
    omega

end Contents

/-- Whether a place has a file that holds a first part of a text, and not all of it. -/
def View.HoldsPart (view : View) (location : Location) (text : Text) : Prop :=
  ∃ contents, view location = some (.file contents) ∧ contents.IsPart text

/-! ## Devices -/

namespace Device

variable {device : Device} {operation : Operation} {files : FileSystem} {path : Path} {text : Text}

/-- Whether a device has room for a first part of a text only. -/
def BreaksOff (device : Device) (files : FileSystem) (path : Path) (text : Text) (fault : Fault) :
    Prop :=
  ∃ room, device.room? files path = some (room, fault) ∧ room < text.byteLength

theorem permit_cases (device : Device) (operation : Operation) (files : FileSystem) (path : Path) :
    device.permit operation files path = .ok () ∨
      ∃ fault, device.permit operation files path = .error (.device fault) := by
  rw [permit]
  cases device.refusal? operation files path with
  | none => exact .inl rfl
  | some fault => exact .inr ⟨fault, rfl⟩

/-- What a device takes: all of a text, or less than that. -/
theorem accepted_cases (device : Device) (files : FileSystem) (path : Path) (text : Text) :
    device.accepted files path text = (.text text, none) ∨
      ∃ fault contents, device.BreaksOff files path text fault ∧ contents.IsPart text ∧
        device.accepted files path text = (contents, some (.device fault)) := by
  unfold accepted Contents.within
  split
  · rename_i room fault limit
    split
    · rename_i breaks
      exact .inr ⟨fault, _, ⟨room, limit, breaks⟩, Contents.firstBytes_isPart breaks, rfl⟩
    · exact .inl rfl
  · exact .inl rfl

end Device

/-- The number of bytes that files hold elsewhere than at a location. -/
def FileSystem.bytesBeside (files : FileSystem) (location : Location) : Nat :=
  files.nodes.foldl (fun total (other, node) =>
    if other = location then total else total + node.contents?.elim 0 (·.bytes.length)) 0

/-- A disk that has room for so many bytes in all. -/
def Device.ofCapacity (capacity : Nat) : Device where
  refusal? := fun _ _ _ => none
  room? := fun files path =>
    some (capacity - files.bytesBeside path.location, ⟨"No space left on device", 28⟩)

namespace FileSystem

variable {files changed : FileSystem} {path : Path} {device : Device}

/-! ## Operations that succeed -/

/-- What is read is what stands there. -/
theorem read_of_device {text : Text} (isText : files.read path device = .ok text) :
    files.read path = .ok text := by
  rw [read] at isText ⊢
  rcases device.permit_cases .read files path with permitted | ⟨fault, refused⟩
  · rwa [permitted] at isText
  · rw [refused] at isText
    cases isText

theorem makeDirectory_of_device (makes : files.makeDirectory path device = .ok changed) :
    files.makeDirectory path = .ok changed := by
  rw [makeDirectory] at makes ⊢
  rcases device.permit_cases .makeDirectory files path with permitted | ⟨fault, refused⟩
  · rwa [permitted] at makes
  · rw [refused] at makes
    cases makes

theorem ensureDirectory_of_isDirectory (isThere : files.isDirectory path) :
    files.ensureDirectory path = .ok files := by
  obtain ⟨error, fails⟩ : ∃ error, files.makeDirectory path = .error error := by
    rw [isDirectory, find?] at isThere
    rw [makeDirectory, Device.permit_reliable]
    cases leads : files.locate path with
    | error error => exact ⟨error, rfl⟩
    | ok place =>
        rw [leads] at isThere
        cases present : place.node with
        | none =>
            dsimp only at isThere
            rw [present] at isThere
            cases isThere
        | some node => exact ⟨.alreadyExists, by simp [bind, Except.bind, present]⟩
  rw [ensureDirectory, fails]
  exact if_pos isThere

/-- A directory is there or is made, as on the reliable device. -/
theorem ensureDirectory_of_device (makes : files.ensureDirectory path device = .ok changed) :
    files.ensureDirectory path = .ok changed := by
  rw [ensureDirectory] at makes
  cases made : files.makeDirectory path device with
  | ok other =>
      rw [made] at makes
      cases makes
      rw [ensureDirectory, makeDirectory_of_device made]
  | error error =>
      rw [made] at makes
      dsimp only at makes
      split at makes
      · split at makes
        · rename_i isThere
          cases makes
          exact ensureDirectory_of_isDirectory isThere
        · cases makes
      · cases makes

/-! ## Writing -/

/-- What writing comes to: it is not begun, it is done, or it is broken off. -/
theorem write_cases (files : FileSystem) (path : Path) (text : Text) (device : Device) :
    (∃ error, files.write path text device = ⟨files, some error⟩) ∨
    (∃ changed, files.store path (.text text) = .ok changed ∧
      files.write path text device = ⟨changed, none⟩) ∨
    ∃ contents changed fault, contents.IsPart text ∧ device.BreaksOff files path text fault ∧
      files.store path contents = .ok changed ∧
      files.write path text device = ⟨changed, some (.device fault)⟩ := by
  rw [write]
  rcases device.permit_cases .write files path with permitted | ⟨fault, refused⟩
  · rw [permitted]
    rcases device.accepted_cases files path text with
      whole | ⟨fault, contents, breaks, isPart, part⟩
    · rw [whole]
      cases stores : files.store path (.text text) with
      | ok changed => exact .inr (.inl ⟨changed, rfl, by simp only [stores]⟩)
      | error error => exact .inl ⟨error, by simp only [stores]⟩
    · rw [part]
      cases stores : files.store path contents with
      | ok changed =>
          exact .inr (.inr
            ⟨contents, changed, fault, isPart, breaks, stores, by simp only [stores]⟩)
      | error error => exact .inl ⟨error, by simp only [stores]⟩
  · rw [refused]
    exact .inl ⟨_, rfl⟩

/-- What writing comes to after other operations. -/
theorem Outcome.andWrite_cases (outcome : Outcome) (path : Path) (text : Text) (device : Device) :
    (∃ error, outcome.error = some error ∧ outcome.andWrite path text device = outcome) ∨
    outcome.error = none ∧
      outcome.andWrite path text device = outcome.files.write path text device := by
  rw [andWrite]
  cases failed : outcome.error with
  | some error => exact .inl ⟨error, rfl, rfl⟩
  | none => exact .inr ⟨rfl, rfl⟩

/-- What is written without an error is all there. -/
theorem Outcome.store_of_andWrite {outcome : Outcome} {text : Text}
    (succeeds : (outcome.andWrite path text device).error = none) :
    outcome.error = none ∧
      outcome.files.store path (.text text) = .ok (outcome.andWrite path text device).files := by
  rcases outcome.andWrite_cases path text device with
    ⟨error, failed, same⟩ | ⟨before, written⟩
  · rw [same, failed] at succeeds
    cases succeeds
  · rw [written] at succeeds ⊢
    refine ⟨before, ?_⟩
    rcases outcome.files.write_cases path text device with
      ⟨error, fails⟩ | ⟨changed, stores, done⟩ | ⟨_, _, _, _, _, _, fails⟩
    · rw [fails] at succeeds
      cases succeeds
    · rw [done]
      exact stores
    · rw [fails] at succeeds
      cases succeeds

end FileSystem

/-! ## Restrictions -/

/-- What is accepted of a text under restrictions, and why it is not all of it. -/
def Restrictions.accepted (restrictions : Restrictions) (path : Path) (text : Text) :
    Contents × Option FileError :=
  Contents.within (restrictions.room? path) text

namespace FileSystem

variable {restrictions : Restrictions} {files changed : FileSystem} {path : Path} {text : Text}

theorem read_ofRestrictions (restrictions : Restrictions) (files : FileSystem) (path : Path) :
    files.read path (.ofRestrictions restrictions) =
      match restrictions.read? path with
      | some fault => .error (.device fault)
      | none => files.read path := by
  rw [read, read, Device.permit_reliable, Device.permit, Device.ofRestrictions]
  dsimp only
  cases restrictions.read? path <;> rfl

theorem makeFromLast_ofRestrictions (restrictions : Restrictions) (files : FileSystem)
    (reversed : List Text) :
    files.makeFromLast reversed (.ofRestrictions restrictions) = files.makeFromLast reversed := by
  have same (others : FileSystem) (path : Path) :
      others.ensureDirectory path (.ofRestrictions restrictions) = others.ensureDirectory path :=
    rfl
  induction reversed with
  | nil => rfl
  | cons segment outer ih => simp only [makeFromLast, ih, same]

/-- Directories are made as on the reliable device. -/
@[simp] theorem makeParents_ofRestrictions (restrictions : Restrictions) (files : FileSystem)
    (path : Path) :
    files.makeParents path (.ofRestrictions restrictions) = files.makeParents path :=
  makeFromLast_ofRestrictions restrictions files _

theorem write_of_withheld {fault : Fault} (withheld : restrictions.write? path = some fault) :
    files.write path text (.ofRestrictions restrictions) = ⟨files, some (.device fault)⟩ := by
  rw [write, Device.permit, Device.ofRestrictions]
  dsimp only
  rw [withheld]

section Permitted

variable (permitted : restrictions.write? path = none)
include permitted

theorem write_of_stores
    (stores : files.store path (restrictions.accepted path text).1 = .ok changed) :
    files.write path text (.ofRestrictions restrictions) =
      ⟨changed, (restrictions.accepted path text).2⟩ := by
  rw [Restrictions.accepted] at stores ⊢
  simp only [write, Device.permit, Device.accepted, Device.ofRestrictions, permitted, stores]

theorem write_of_refuses {error : FileError}
    (refuses : files.store path (restrictions.accepted path text).1 = .error error) :
    files.write path text (.ofRestrictions restrictions) = ⟨files, some error⟩ := by
  rw [Restrictions.accepted] at refuses
  simp only [write, Device.permit, Device.accepted, Device.ofRestrictions, permitted, refuses]

end Permitted

end FileSystem

end ComponentTsx
