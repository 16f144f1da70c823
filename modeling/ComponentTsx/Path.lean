import ComponentTsx.Text

/-!
# Paths

A path is kept as it is written, since reports show it that way.  Its meaning is
its components: names, steps to the parent directory, the root of an absolute
path, and a point at the beginning of a relative one.  Repeated separators and
other points mean nothing, and paths with the same components are the same.
-/

namespace ComponentTsx

set_option autoImplicit false

/-- A path as it is written. -/
abbrev Path := Text

namespace Path

/-- A step of a path. -/
inductive Component where
  | root
  | current
  | parent
  | name (name : Text)
deriving DecidableEq, Repr

/-! ## Segments and components -/

/-- The texts between the separators of a path: one more than there are separators. -/
def segments : Path → List Text
  | [] => [[]]
  | char :: rest =>
      if char = '/' then [] :: segments rest
      else
        match segments rest with
        | [] => [[char]]
        | first :: others => (char :: first) :: others

/-- The path of some segments. -/
def ofSegments (segments : List Text) : Path := ['/'].intercalate segments

/-- Whether a segment means nothing, unless it begins a path. -/
def isVoid (segment : Text) : Bool := segment.isEmpty || segment = ['.']

/-- The step that a segment means inside a path. -/
def stepOf (segment : Text) : Component :=
  if segment = ['.', '.'] then .parent else .name segment

/-- The components of some segments inside a path. -/
def innerComponents (segments : List Text) : List Component :=
  (segments.filter (!isVoid ·)).map stepOf

/-- Whether a path begins at the root. -/
def isAbsolute (path : Path) : Bool := path.head? = some '/'

/-- The components of a path. -/
def components (path : Path) : List Component :=
  match path.segments with
  | [] => []
  | first :: rest =>
      if path.isAbsolute then .root :: innerComponents rest
      else if first = ['.'] then .current :: innerComponents rest
      else innerComponents (first :: rest)

/-! ## Order -/

/-- The place of a kind of component among the kinds. -/
def Component.rank : Component → Nat
  | root => 0
  | current => 1
  | parent => 2
  | name _ => 3

/-- Whether one text comes no later than another, by code points. -/
def textLe : Text → Text → Bool
  | [], _ => true
  | _ :: _, [] => false
  | first :: rest, second :: others =>
      if first = second then textLe rest others else first.toNat < second.toNat

/-- Whether one component comes no later than another: by kind, and names by code points. -/
def Component.le : Component → Component → Bool
  | name first, name second => textLe first second
  | first, second => first.rank ≤ second.rank

/-- Whether one list of components comes no later than another, component by component. -/
def componentsLe : List Component → List Component → Bool
  | [], _ => true
  | _ :: _, [] => false
  | first :: rest, second :: others =>
      if first = second then componentsLe rest others else first.le second

/-! ## Joining and cutting -/

/-- A path taken from a base; an absolute path stands for itself. -/
def join (base path : Path) : Path :=
  if path.isAbsolute then path
  else if base.isEmpty || base.getLast? = some '/' then base ++ path
  else base ++ ['/'] ++ path

/-- The segments without the void ones at either end. -/
def trimVoid (segments : List Text) : List Text :=
  ((segments.dropWhile isVoid).reverse.dropWhile isVoid).reverse

/-- The segments that follow the given components, if they begin with those. -/
def afterComponents? (segments : List Text) : List Component → Option (List Text)
  | [] => some segments
  | component :: rest =>
      match segments.dropWhile isVoid with
      | [] => none
      | first :: others => if stepOf first = component then afterComponents? others rest else none

/-- The segments of a path after its first component, if that is a given one. -/
def afterFirst? (path : Path) (component : Component) : Option (List Text) :=
  match component with
  | .root => if path.isAbsolute then some path.segments.tail else none
  | .current => if path.segments.head? = some ['.'] then some path.segments.tail else none
  | step =>
      if path.components.head? = some step then
        some (path.segments.dropWhile isVoid).tail
      else none

/-- What follows a base in a path, as it is written, if the path leads through the base. -/
def strip? (base path : Path) : Option Path :=
  match base.components with
  | [] => some path
  | first :: rest => do
      let segments ← path.afterFirst? first
      let remaining ← afterComponents? segments rest
      return ofSegments (trimVoid remaining)

/-- The path as seen from a base: what follows the base, or the path itself. -/
def relativeTo (base path : Path) : Path := (strip? base path).getD path

/-- A path taken from a base, a leading point of it dropped. -/
def resolve (base path : Path) : Path :=
  let stripped := relativeTo ['.'] path
  if stripped.isEmpty then base else join base stripped

/-- The name of the file that a path leads to; none where it ends with another step. -/
def fileName? (path : Path) : Option Text :=
  match path.components.getLast? with
  | some (.name name) => some name
  | _ => none

example : strip? "/a/b".toList "/a//b/./c/d".toList = some "c/d".toList := by decide +kernel
example : resolve "/a".toList "./b".toList = "/a/b".toList := by decide +kernel

end Path

end ComponentTsx
