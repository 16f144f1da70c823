import ComponentTsx.Conversion
import ComponentTsx.Path
import ComponentTsx.Report

/-!
# Command-line arguments

An argument is a flag, an option with its value, or a path.  The value of a long
option may stand behind an equals sign or be the next argument.  After the
argument `--`, all arguments are paths; a single dash is always a path or a
value.

A flag or an option is given once, but for patterns to ignore.  An option with
its value in an argument of its own is looked at only when the next argument has
been understood, so a later argument that is unknown is complained about first.
-/

namespace ComponentTsx

set_option autoImplicit false

/-- The arguments of a run.  What is not given has a default or is left to the configuration. -/
structure Arguments where
  /-- Files and directories to convert. -/
  paths : List Path := []
  workspace : Option Path := none
  outDir : Option Path := none
  sourcemap : Option MapDelivery := none
  /-- Patterns of files to leave out. -/
  ignore : List Text := []
  output : Option OutputFormat := none
  /-- The file name of a component read from standard input. -/
  stdinFilename : Option Text := none
  config : Option Path := none
  /-- Whether the code is printed instead of written to files. -/
  emitTsx : Bool := false
  failOnWarnings : Bool := false
  verbose : Bool := false
  quiet : Bool := false
deriving DecidableEq, Repr

/-- Why arguments do not describe a run. -/
inductive UsageError where
  /-- There is no such flag or option. -/
  | unknownArgument
  /-- An option has no value, or one it cannot have. -/
  | invalidValue
  /-- A flag has a value. -/
  | tooManyValues
  /-- An argument is given twice, or two exclude each other. -/
  | argumentConflict
  /-- Help is asked for. -/
  | helpRequested
  /-- The version is asked for. -/
  | versionRequested
deriving DecidableEq, Repr

namespace Arguments

/-- The arguments without a value. -/
inductive Flag where
  | emitTsx
  | failOnWarnings
  | verbose
  | quiet
  | help
  | version
deriving DecidableEq, Repr

/-- The arguments with a value. -/
inductive ValueOption where
  | workspace
  | outDir
  | sourcemap
  | ignore
  | output
  | stdinFilename
  | config
deriving DecidableEq, Repr

/-- The flag with a long name. -/
def longFlag? (name : Text) : Option Flag :=
  [("emit-tsx", Flag.emitTsx), ("fail-on-warnings", .failOnWarnings), ("verbose", .verbose),
    ("quiet", .quiet), ("help", .help), ("version", .version)].findSome? fun (long, flag) =>
      if long.toList = name then some flag else none

/-- The flag with a short name. -/
def shortFlag? (name : Char) : Option Flag :=
  [('v', Flag.verbose), ('q', .quiet), ('h', .help), ('V', .version)].lookup name

/-- The option with a long name. -/
def longOption? (name : Text) : Option ValueOption :=
  [("workspace", ValueOption.workspace), ("out-dir", .outDir), ("sourcemap", .sourcemap),
    ("ignore", .ignore), ("output", .output), ("stdin-filename", .stdinFilename),
    ("config", .config)].findSome? fun (long, option) =>
      if long.toList = name then some option else none

/-- The form of a summary with a name. -/
def outputFormat? (name : Text) : Option OutputFormat :=
  if name = "human".toList then some .human
  else if name = "json".toList then some .json
  else none

/-! ## Giving an argument -/

/-- A setting that may be given once. -/
def once {α : Type} (before : Option α) (value : Option α) : Except UsageError (Option α) :=
  match before, value with
  | some _, _ => .error .argumentConflict
  | none, some value => .ok (some value)
  | none, none => .error .invalidValue

/-- The arguments with an option given. -/
def setOption (arguments : Arguments) (option : ValueOption) (value : Text) :
    Except UsageError Arguments :=
  match option with
  | .workspace => do
      return { arguments with workspace := ← once arguments.workspace (some value) }
  | .outDir => do return { arguments with outDir := ← once arguments.outDir (some value) }
  | .sourcemap => do
      return { arguments with
        sourcemap := ← once arguments.sourcemap (MapDelivery.ofName? value) }
  | .ignore => .ok { arguments with ignore := arguments.ignore ++ [value] }
  | .output => do
      return { arguments with output := ← once arguments.output (outputFormat? value) }
  | .stdinFilename => do
      return { arguments with stdinFilename := ← once arguments.stdinFilename (some value) }
  | .config => do return { arguments with config := ← once arguments.config (some value) }

/-- A flag that may be given once. -/
def onceSet (before : Bool) : Except UsageError Bool :=
  if before then .error .argumentConflict else .ok true

/-- The arguments with a flag given. -/
def setFlag (arguments : Arguments) (flag : Flag) : Except UsageError Arguments :=
  match flag with
  | .emitTsx => do return { arguments with emitTsx := ← onceSet arguments.emitTsx }
  | .failOnWarnings => do
      return { arguments with failOnWarnings := ← onceSet arguments.failOnWarnings }
  | .verbose => do return { arguments with verbose := ← onceSet arguments.verbose }
  | .quiet => do return { arguments with quiet := ← onceSet arguments.quiet }
  | .help => .error .helpRequested
  | .version => .error .versionRequested

/-! ## Reading a command line -/

/-- The arguments read so far, and an option that was named but not yet looked at. -/
structure Reading where
  arguments : Arguments := {}
  /-- The last option, with the value that followed it, if one did. -/
  pending : Option (ValueOption × Option Text) := none

namespace Reading

/-- The arguments with the pending option given. -/
def settle (reading : Reading) : Except UsageError Arguments :=
  match reading.pending with
  | none => .ok reading.arguments
  | some (option, some value) => reading.arguments.setOption option value
  | some (_, none) => .error .invalidValue

/-- Reads a long argument, without its dashes. -/
def long (reading : Reading) (argument : Text) : Except UsageError Reading :=
  let name := argument.takeWhile (· ≠ '=')
  let value :=
    if name.length < argument.length then some (argument.drop (name.length + 1)) else none
  match longOption? name, longFlag? name, value with
  | some option, _, some value => do
      return ⟨← (← reading.settle).setOption option value, none⟩
  | some option, _, none => do return ⟨← reading.settle, some (option, none)⟩
  | none, some _, some _ => .error .tooManyValues
  | none, some flag, none => do return ⟨← (← reading.settle).setFlag flag, none⟩
  | none, none, _ => .error .unknownArgument

/-- Reads short flags that share a dash. -/
def short (reading : Reading) : Text → Except UsageError Reading
  | [] => .ok reading
  | name :: rest =>
      match shortFlag? name with
      | some flag => do short ⟨← (← reading.settle).setFlag flag, none⟩ rest
      | none => .error .unknownArgument

/-- Reads an argument that is the value of the pending option, or else a path. -/
def plain (reading : Reading) (argument : Text) : Except UsageError Reading :=
  match reading.pending with
  | some (option, none) => .ok { reading with pending := some (option, some argument) }
  | _ => do
      let arguments ← reading.settle
      return ⟨{ arguments with paths := arguments.paths ++ [argument] }, none⟩

/-- Reads the rest of a command line. -/
def all (reading : Reading) : List Text → Except UsageError Arguments
  | [] => reading.settle
  | argument :: rest =>
      match argument with
      | ['-', '-'] => do
          let arguments ← reading.settle
          return { arguments with paths := arguments.paths ++ rest }
      | '-' :: '-' :: name => do (← reading.long name).all rest
      | '-' :: first :: others => do (← reading.short (first :: others)).all rest
      | _ => do (← reading.plain argument).all rest

end Reading

/-- The arguments of a command line. -/
def parse (commandLine : List Text) : Except UsageError Arguments := do
  let arguments ← Reading.all {} commandLine
  if arguments.verbose && arguments.quiet then .error .argumentConflict else .ok arguments

/-! ## Defaults -/

/-- The paths to convert: by default, the workspace. -/
def pathsOrDefault (arguments : Arguments) : List Path :=
  if arguments.paths.isEmpty then [".".toList] else arguments.paths

/-- The form of the summary: by default, the one for people. -/
def outputOrDefault (arguments : Arguments) : OutputFormat := arguments.output.getD .human

/-- Whether a component is read from standard input. -/
def readsStdin (arguments : Arguments) : Bool := arguments.paths.contains ['-']

end Arguments

end ComponentTsx
