import ComponentTsx.Component
import ComponentTsx.Json.Document
import ComponentTsx.LineIndex

/-!
# Reports of a run

A run reports on each file it was asked to convert, and sums the reports up: how
many files were converted, how many warnings there were, and how many files
failed.  The errors of a component source do not stop its conversion; in a
report they are warnings, at lines and columns counted from one.
-/

namespace ComponentTsx

set_option autoImplicit false

/-- The decimal digits of a number. -/
def Text.ofNat (value : Nat) : Text := (toString value).toList

/-! ## Warnings -/

/-- An error of a component source, with its place for people and for programs. -/
structure Warning where
  message : Text
  /-- The line, counted from one. -/
  line : Nat
  /-- The byte column, counted from one. -/
  column : Nat
  /-- The byte offset. -/
  offset : Nat
deriving DecidableEq, Repr

/-- The warnings for the errors of a source. -/
def Warning.ofErrors (source : Text) (errors : List ParseError) : List Warning :=
  let index := LineIndex.ofText source
  errors.map fun error =>
    let position := index.position error.span.start
    ⟨error.kind.message.toList, position.line + 1, position.column + 1, error.span.start⟩

/-- An error of a component source as it is shown with the source: a labelled part, and advice. -/
structure Diagnostic where
  message : String
  code : String
  severity : String
  help : String
  label : String
  /-- Where the labelled part begins. -/
  offset : Nat
  /-- The length of the labelled part, as far as it lies in the source. -/
  length : Nat
deriving DecidableEq, Repr

/-- The diagnostic for an error of a source. -/
def Diagnostic.ofError (source : Text) (error : ParseError) : Diagnostic :=
  let start := min error.span.start source.byteLength
  let stop := min error.span.stop source.byteLength
  match error.kind with
  | .unclosedFrontmatter =>
      { message := error.kind.message
        code := "astro_tsx::parse"
        severity := "Warning"
        help := "add a line containing only `---` after the frontmatter"
        label := "frontmatter opened here"
        offset := start
        length := stop - start }

/-! ## Files -/

/-- What happened to one file. -/
structure FileReport where
  /-- The path of the file, as far as it leads out of the workspace. -/
  path : Text
  /-- Where the code was written; none if it was printed, or the file failed. -/
  output : Option Text := none
  /-- The kind of declaration that the properties have. -/
  props : Option Text := none
  warnings : List Warning := []
  /-- Why the file failed. -/
  error : Option Text := none
deriving DecidableEq, Repr

/-- Whether the file could not be converted. -/
def FileReport.failed (report : FileReport) : Bool := report.error.isSome

/-! ## Summaries -/

/-- The forms in which a run is summed up. -/
inductive OutputFormat where
  | human
  | json
deriving DecidableEq, Repr

/-- The reports of a run, in the order of the files. -/
structure RunSummary where
  files : List FileReport
  /-- Whether a warning makes the run fail. -/
  failOnWarnings : Bool
deriving DecidableEq, Repr

namespace RunSummary

/-- The number of files that failed. -/
def failed (summary : RunSummary) : Nat := summary.files.countP FileReport.failed

/-- The number of files that were converted. -/
def converted (summary : RunSummary) : Nat := summary.files.length - summary.failed

/-- The number of warnings. -/
def warnings (summary : RunSummary) : Nat := (summary.files.flatMap (·.warnings)).length

/-- Whether the run as a whole failed. -/
def shouldFail (summary : RunSummary) : Bool :=
  decide (0 < summary.failed) || (decide (0 < summary.warnings) && summary.failOnWarnings)

/-- A number of things, given the word for one. -/
def counted (count : Nat) (thing : Text) : Text :=
  Text.ofNat count ++ [' '] ++ thing ++ if count = 1 then [] else ['s']

/-- The summary in a line. -/
def line (summary : RunSummary) : Text :=
  "Converted ".toList ++ counted summary.converted "file".toList ++ " (".toList ++
    counted summary.warnings "warning".toList ++ ")".toList ++
    if summary.failed = 0 then [] else ", ".toList ++ Text.ofNat summary.failed ++ " failed".toList

/-- A warning as a document. -/
def warningDocument (warning : Warning) : Json.Document :=
  .object [("message".toList, .string warning.message), ("line".toList, .number warning.line),
    ("column".toList, .number warning.column), ("offset".toList, .number warning.offset)]

/-- A report as a document. -/
def reportDocument (report : FileReport) : Json.Document :=
  .object [("path".toList, .string report.path), ("output".toList, .ofText? report.output),
    ("props".toList, .ofText? report.props),
    ("warnings".toList, .array (report.warnings.map warningDocument)),
    ("error".toList, .ofText? report.error)]

/-- The summary as a document. -/
def document (summary : RunSummary) : Json.Document :=
  .object [("files".toList, .array (summary.files.map reportDocument)),
    ("converted".toList, .number summary.converted),
    ("warnings".toList, .number summary.warnings), ("failed".toList, .number summary.failed)]

/-- The summary in a form. -/
def format (summary : RunSummary) : OutputFormat → Text
  | .human => summary.line
  | .json => summary.document.text

end RunSummary

end ComponentTsx
