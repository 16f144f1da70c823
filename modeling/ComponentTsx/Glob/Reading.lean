import ComponentTsx.Glob.Part

/-!
# Reading glob patterns

A text is read from its first character to its last.  What was read is kept with
the last part first, so that two stars can look at what they follow.

Two stars between separators stand for any number of whole directories, also
none; at the beginning they stand for any directories to start with, and at the
end for anything below.  In alternatives, braces and commas bound them as the
ends of the pattern do.  Elsewhere two stars are just two stars.
-/

namespace ComponentTsx.Glob

set_option autoImplicit false

/-! ## Classes -/

/--
The ranges of a class whose text goes on with this, and how many characters that text has in all,
given the ranges so far, the last one first, and how many characters they took.  A closing bracket
or a dash at the beginning stands for itself, and so does a dash at the end.
-/
def readClass (isFirst inRange : Bool) (ranges : List (Char × Char)) (length : Nat) :
    Text → Option (List (Char × Char) × Nat)
  | [] => none
  | char :: rest =>
      if char = ']' ∧ isFirst = false then
        some ((if inRange then ('-', '-') :: ranges else ranges).reverse, length + 1)
      else if char = '-' ∧ isFirst = false ∧ inRange = false then
        readClass false true ranges (length + 1) rest
      else if inRange then
        match ranges with
        | [] => none
        | (low, _) :: earlier =>
            if low ≤ char then readClass false false ((low, char) :: earlier) (length + 1) rest
            else none
      else readClass false false ((char, char) :: ranges) (length + 1) rest

/-- The class whose text follows an opening bracket, and how many characters that text has. -/
def class? : Text → Option (Part × Nat)
  | [] => none
  | first :: rest =>
      if first = '!' ∨ first = '^' then
        (readClass true false [] 1 rest).map fun (ranges, length) => (.oneOf true ranges, length)
      else
        (readClass true false [] 0 (first :: rest)).map fun (ranges, length) =>
          (.oneOf false ranges, length)

/-! ## Sequences -/

/-- Alternatives that are being read. -/
structure Group where
  /-- The parts before the alternatives, the last one first. -/
  before : List Part
  /-- The alternatives that are complete, the last one first. -/
  branches : List (List Part)

/-- The part that two stars make of the separator before them, which is the last part so far. -/
def directoriesAfter (last : Part) (atEnd : Bool) : Part :=
  match last with
  | .leadingDirectories => .leadingDirectories
  | .anythingBelow => .anythingBelow
  | _ => if atEnd then .anythingBelow else .innerDirectories

/--
The parts of a branch after two stars, and whether a separator that follows the stars is taken with
them, given the parts before the stars, the character before them, and the text after them.
-/
def readStars (inGroup : Bool) (branch : List Part) (previous : Option Char) (rest : Text) :
    List Part × Bool :=
  let plain := (.star :: .star :: branch, false)
  let next := rest.head?
  match branch with
  | [] => if next = none ∨ next = some '/' then ([.leadingDirectories], next.isSome) else plain
  | last :: earlier =>
      if previous = some '/' ∨ (inGroup ∧ (previous = some ',' ∨ previous = some '{')) then
        if next = none ∨ (inGroup ∧ (next = some ',' ∨ next = some '}')) then
          (directoriesAfter last true :: earlier, false)
        else if next = some '/' then (directoriesAfter last false :: earlier, true)
        else plain
      else plain

/--
The parts of a pattern that goes on with a text, given the open groups, the innermost first, the
parts of the branch so far, the last one first, and the character before the text.
-/
def readFrom (groups : List Group) (branch : List Part) (previous : Option Char) :
    Text → Option (List Part)
  | [] => if groups.isEmpty then some branch.reverse else none
  | '?' :: rest => readFrom groups (.any :: branch) (some '?') rest
  | '*' :: '*' :: rest =>
      let (branch, takesSeparator) := readStars (!groups.isEmpty) branch previous rest
      if takesSeparator then readFrom groups branch (some '/') (rest.drop 1)
      else readFrom groups branch (some '*') rest
  | '*' :: rest => readFrom groups (.star :: branch) (some '*') rest
  | '[' :: rest =>
      match class? rest with
      | some (part, length) => readFrom groups (part :: branch) (some ']') (rest.drop length)
      | none => none
  | '{' :: rest => readFrom (⟨branch, []⟩ :: groups) [] (some '{') rest
  | '}' :: rest =>
      match groups with
      | [] => none
      | group :: outer =>
          let branches := (branch.reverse :: group.branches).reverse
          readFrom outer (.alternatives branches :: group.before) (some '}') rest
  | ',' :: rest =>
      match groups with
      | [] => readFrom groups (.literal ',' :: branch) (some ',') rest
      | group :: outer =>
          readFrom (⟨group.before, branch.reverse :: group.branches⟩ :: outer) [] (some ',') rest
  | '\\' :: rest =>
      match rest with
      | [] => none
      | char :: rest => readFrom groups (.literal char :: branch) (some char) rest
  | char :: rest => readFrom groups (.literal char :: branch) (some char) rest
termination_by text => text.length

end ComponentTsx.Glob
