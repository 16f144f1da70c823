import ComponentTsx.Config.Comments
import ComponentTsx.Conversion
import ComponentTsx.Json.Value
import ComponentTsx.Path

/-!
# Configuration of a project

A configuration tells which files are components, which of them to leave out,
how source maps are delivered and where the output goes.  It is written as a
JSON object, in which every setting may be missing, or as an array of settings
in a fixed order.  Other keys are of no interest, but a setting must not be
given twice.
-/

namespace ComponentTsx

set_option autoImplicit false

/-- The settings of a project. -/
structure Config where
  /-- The extensions of component files, as written. -/
  extensions : List Text := []
  /-- Patterns of files to leave out. -/
  exclude : List Text := []
  /-- How source maps are delivered, unless the command line tells. -/
  sourcemap : Option MapDelivery := none
  /-- The output directory, unless the command line gives one. -/
  outDir : Option Path := none
deriving DecidableEq, Repr

namespace Config

/-! ## Settings from JSON values -/

/-- A text from a string that has one. -/
def textOf? : Json.Value → Option Text
  | .scalar (.string text) => text
  | _ => none

/-- A list of texts from an array of strings. -/
def textsOf? : Json.Value → Option (List Text)
  | .array items => items.mapM textOf?
  | _ => none

/-- A setting that `null` leaves open. -/
def optional? {α : Type} (decode : Json.Value → Option α) (value : Json.Value) :
    Option (Option α) :=
  match value with
  | .scalar .null => some none
  | value => (decode value).map some

/-- A way to deliver source maps, by its name or by an object with `null` under the name. -/
def deliveryOf? : Json.Value → Option MapDelivery
  | .scalar (.string name) => name.bind MapDelivery.ofName?
  | .object [(name, .scalar .null)] => name.bind MapDelivery.ofName?
  | _ => none

/-- Changes the configuration by a setting, given the key of the setting; other keys do nothing. -/
def set? (config : Config) (key : Text) (value : Json.Value) : Option Config :=
  if key = "extensions".toList then
    (textsOf? value).map fun extensions => { config with extensions }
  else if key = "exclude".toList then
    (textsOf? value).map fun exclude => { config with exclude }
  else if key = "sourcemap".toList then
    (optional? deliveryOf? value).map fun sourcemap => { config with sourcemap }
  else if key = "outDir".toList then
    (optional? textOf? value).map fun outDir => { config with outDir }
  else some config

/-! ## Reading a configuration -/

/-- The keys of the settings, in the order in which an array gives them. -/
def keys : List Text :=
  ["extensions".toList, "exclude".toList, "sourcemap".toList, "outDir".toList]

/-- The configuration of some settings, each with its key; no setting may be given twice. -/
def ofSettings? (settings : List (Text × Json.Value)) : Option Config :=
  let given := (settings.map (·.1)).filter keys.contains
  if given.Nodup then
    settings.foldlM (fun config (key, value) => config.set? key value) {}
  else none

/-- The configuration that a JSON value describes. -/
def ofValue? : Json.Value → Option Config
  | .object members => do
      let settings ← members.mapM fun (key, value) => key.map (·, value)
      ofSettings? settings
  | .array items => if items.length ≤ keys.length then ofSettings? (keys.zip items) else none
  | .scalar _ => none

/-- The configuration in a text with comments. -/
def parse? (content : Text) : Option Config := (Json.parse? (removeComments content)).bind ofValue?

/-- The endings of the names of component files. -/
def fileExtensions (config : Config) : List Text :=
  if config.extensions.isEmpty then [".astro".toList]
  else config.extensions.map fun extension => '.' :: extension.dropWhile (· = '.')

end Config

end ComponentTsx
