import ComponentTsx.Config
import ComponentTsx.FileSystem
import ComponentTsx.Glob

/-!
# Finding the components to convert

A file that is asked for by its path is always converted.  A directory is
searched, at any depth, for files whose names have a configured ending; those
whose path is ignored are left out, as it is if a pattern accepts it.  The files come in the
order of their paths, each of them once.
-/

namespace ComponentTsx.Discovery

set_option autoImplicit false

/-- Directories in which no components are looked for. -/
def defaultIgnores : List Text :=
  ["**/node_modules/**".toList, "**/dist/**".toList, "**/.astro/**".toList]

/-- The patterns that some texts describe, and those that always apply. -/
def patterns? (texts : List Text) : Option (List Glob) := (texts ++ defaultIgnores).mapM Glob.parse?

/-- Whether one of some patterns accepts a path. -/
def matchesAny (patterns : List Glob) (path : Path) : Bool := patterns.any (·.accepts path)

/-- What a search goes by. -/
structure Criteria where
  workspace : Path
  /-- The endings of the names of components. -/
  endings : List Text
  /-- Whether a path is left out, as seen from the workspace. -/
  ignores : Path → Bool

/-- Whether a file found in a search is a component to convert. -/
def Criteria.admits (criteria : Criteria) (file : Path) : Bool :=
  criteria.endings.any (·.isSuffixOf (file.fileName?.getD [])) &&
    !criteria.ignores (Path.relativeTo criteria.workspace file)

/--
The paths of all files below a directory.  A directory whose path is too long is not searched.
-/
def filesIn (files : FileSystem) (directory : Path) : List Path :=
  let reachable := (files.filesBelow directory).filter fun names =>
    (names.dropLast.foldl Path.join directory).byteLength < FileSystem.pathLimit
  reachable.map (·.foldl Path.join directory)

/-- The files that a path stands for; none if there is neither a file nor a directory. -/
def filesFor? (files : FileSystem) (criteria : Criteria) (path : Path) : Option (List Path) :=
  if files.isFile path then some [path]
  else if files.isDirectory path then some ((filesIn files path).filter criteria.admits)
  else none

/-- Paths in the order of their components, and of paths with the same ones only the first. -/
def inOrder (paths : List Path) : List Path :=
  let keyed := paths.map fun path => (path.components, path)
  let sorted := keyed.mergeSort fun first second => Path.componentsLe first.1 second.1
  (sorted.eraseRepsBy fun first second => first.1 = second.1).map (·.2)

/-- The files that some paths stand for, taken from the workspace, or the first path without any. -/
def collect (files : FileSystem) (criteria : Criteria) (paths : List Path) :
    Except Path (List Path) := do
  let found ← paths.mapM fun path =>
    let path := Path.resolve criteria.workspace path
    match filesFor? files criteria path with
    | some found => .ok found
    | none => .error path
  return inOrder found.flatten

end ComponentTsx.Discovery
