import ComponentTsx.Token.Literal

/-!
# Comments in configuration files

A configuration file is JSON in which comments may stand between tokens, in both
styles of TypeScript.  They are taken out before the file is read.  What looks
like a comment inside a string is left alone.
-/

namespace ComponentTsx.Config

set_option autoImplicit false

/--
The characters of a JSON string after its opening quote: through the closing quote, or all.  A
backslash hides the character after it.
-/
def stringLength : Text → Nat
  | [] => 0
  | '"' :: _ => 1
  | '\\' :: _ :: rest => stringLength rest + 2
  | _ :: rest => stringLength rest + 1

/-- The text without its comments.  The line feed after a line comment stays. -/
def removeComments : Text → Text
  | [] => []
  | '"' :: rest =>
      let length := stringLength rest
      '"' :: rest.take length ++ removeComments (rest.drop length)
  | '/' :: '/' :: rest => removeComments (rest.drop (Literal.lineCommentLength rest))
  | '/' :: '*' :: rest => removeComments (rest.drop (Literal.blockCommentLength rest))
  | char :: rest => char :: removeComments rest
termination_by text => text.length

example : removeComments "[1, /* \"two\" */ \"//\"] // 3".toList = "[1,  \"//\"] ".toList := by
  decide +kernel

end ComponentTsx.Config
