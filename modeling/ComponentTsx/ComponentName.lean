import ComponentTsx.Text.Numeric
import ComponentTsx.Text.Uppercase

/-!
# Component names

A component is named after its file: the file name up to the first point, with
a capital.  Where that is no identifier, the words of the file name are run
together, each with a capital, and what cannot stand in an identifier is left
out.  A component that comes from no file has the empty name.
-/

namespace ComponentTsx.ComponentName

set_option autoImplicit false

/-- The file name of a component read from standard input. -/
def stdinFilename : Text := "<stdin>".toList

/-- Whether a character separates the parts of a path. -/
def isSeparator (char : Char) : Bool := char = '/' || char = '\\'

/-- What follows the last separator of a path. -/
def baseName (path : Text) : Text :=
  (path.reverse.takeWhile (!isSeparator ·)).reverse

/-- The base name of a path up to its first point. -/
def stem (path : Text) : Text := (baseName path).takeWhile (· ≠ '.')

/-- Whether an identifier may begin with a character. -/
def beginsName (char : Char) : Bool := isAlphabetic char || char = '_' || char = '$'

/-- Whether an identifier may go on with a character. -/
def continuesName (char : Char) : Bool := isAlphanumeric char || char = '_' || char = '$'

/-- Whether a text is an identifier. -/
def isIdentifier : Text → Bool
  | [] => false
  | first :: rest => beginsName first && rest.all continuesName

/-- Whether the next word of a file name begins after a character. -/
def separatesWords (char : Char) : Bool :=
  char = '-' || char = '.' || char = '_' || char = ' '

/-- The words of a text run together; the first character kept becomes a capital if asked for. -/
def joinWords (capital : Bool) : Text → Text
  | [] => []
  | char :: rest =>
      if isAlphanumeric char then
        (if capital then uppercase char else [char]) ++ joinWords false rest
      else joinWords (capital || separatesWords char) rest

/-- The text with a capital at its beginning. -/
def capitalize : Text → Text
  | [] => []
  | first :: rest => uppercase first ++ rest

/-- The component name of a file. -/
def ofPath (path : Text) : Text :=
  if path = stdinFilename then []
  else
    let name := capitalize (stem path)
    if isIdentifier name then name
    else joinWords true ((stem path).dropWhile (!isAlphabetic ·))

end ComponentTsx.ComponentName
