import ComponentTsx.Run

/-!
# The command line program

The program reads the directories and files that its arguments name, runs on
them, and writes the files that the run changed.  The summary goes to standard
output, or to standard error where standard output carries code.
-/

namespace ComponentTsx.Program

set_option autoImplicit false

/-- The file system with what a path leads to, as far as it can be read. -/
partial def load (files : FileSystem) (path : Path) : IO FileSystem := do
  let place ← try IO.FS.realPath (String.ofList path) catch _ => return files
  let names ← try pure (some ((← place.readDir).toList.map (·.fileName))) catch _ => pure none
  match names with
  | some names =>
      let files := (files.makeDirectories path).files
      names.foldlM (fun files name => load files (path.join name.toList)) files
  | none =>
      let bytes ← try IO.FS.readBinFile place catch _ => return files
      let contents : Contents :=
        match String.fromUTF8? bytes with
        | some text => .text text.toList
        | none => .undecodable bytes.toList
      let files := (files.makeParents path).files
      match files.locate path with
      | .ok place => return files.put place.location (.file contents)
      | .error _ => return files

/-- The file system with all that a run can read. -/
def loadFor (arguments : Arguments) (currentDirectory : Path) : IO FileSystem := do
  let workspace := arguments.workspaceIn currentDirectory
  let configuration := workspace.join (arguments.config.getD configName)
  let sources :=
    if arguments.readsStdin then []
    else workspace :: arguments.pathsOrDefault.map (Path.resolve workspace)
  (configuration :: sources).foldlM load {}

/-- Writes the directories and files that one file system has and another has not. -/
def save (before after : FileSystem) : IO Unit := do
  for (location, node) in after.nodes do
    let place := String.ofList (Path.ofSegments ([] :: location))
    match node with
    | .directory _ => unless before.isDirectoryAt location do IO.FS.createDirAll place
    | .file (.text text) =>
        unless before.contents? location = some (.text text) do
          IO.FS.writeFile place (String.ofList text)
    | .file (.undecodable _) => pure ()

/-- What the program says about arguments that describe no run. -/
def explain : UsageError → String
  | .unknownArgument => "error: unexpected argument found"
  | .invalidValue => "error: an option lacks a value or cannot have the one given"
  | .tooManyValues => "error: a flag has a value"
  | .argumentConflict => "error: an argument is given twice, or two exclude each other"
  | .helpRequested =>
      "Usage: astro-tsx [OPTIONS] [PATHS]...\n\n" ++
      "Options: --workspace --out-dir --emit-tsx --sourcemap --ignore --output\n" ++
      "  --stdin-filename --config --fail-on-warnings --verbose --quiet --help --version"
  | .versionRequested => "astro-tsx 0.9.5"

/-- Runs the program with some arguments in the current directory. -/
def runArguments (arguments : Arguments) : IO UInt32 := do
  let currentDirectory : Path := (toString (← IO.currentDir)).toList
  let files ← loadFor arguments currentDirectory
  let input ← if arguments.readsStdin then (← IO.getStdin).readToEnd else pure ""
  let result := run arguments ⟨files, currentDirectory, .text input.toList⟩
  save files result.files
  IO.print (String.ofList result.printed)
  match result.outcome with
  | .error error =>
      IO.eprintln (String.ofList error.message)
      return 1
  | .ok summary =>
      let text := String.ofList (summary.format arguments.outputOrDefault)
      if arguments.readsStdin || arguments.emitTsx then IO.eprintln text else IO.println text
      return if summary.shouldFail then 1 else 0

end ComponentTsx.Program

/-- Converts the components that the command line asks for. -/
def main (commandLine : List String) : IO UInt32 := do
  match ComponentTsx.Arguments.parse (commandLine.map String.toList) with
  | .ok arguments => ComponentTsx.Program.runArguments arguments
  | .error error =>
      IO.eprintln (ComponentTsx.Program.explain error)
      return if error = .helpRequested ∨ error = .versionRequested then 0 else 2
