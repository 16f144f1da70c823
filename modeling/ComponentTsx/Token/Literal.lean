import ComponentTsx.Text

/-!
# Lengths of comments, strings, templates and regular expressions

These tokens begin with a character or two that announce them.  Each function
here is given the text after the announcement and counts the characters that
still belong to the token.  No count exceeds the length of the text, and an
unterminated token takes what its kind of token takes: a string stops before the
line feed, a comment and a template run to the end of the text.
-/

namespace ComponentTsx.Literal

set_option autoImplicit false

/-- The characters up to the next line feed, which ends a line comment. -/
def lineCommentLength (text : Text) : Nat := (text.takeWhile (· ≠ '\n')).length

/-- The characters through the next `*/`, or all of them. -/
def blockCommentLength : Text → Nat
  | [] => 0
  | '*' :: '/' :: _ => 2
  | _ :: rest => blockCommentLength rest + 1

/--
The characters of a string literal after its opening quote: through the closing quote, up to a line
feed, or all.  A backslash hides the character after it, and behind a carriage return also the
character after that, so that an escaped line break is part of the string in either style.
-/
def quotedLength (quote : Char) : Text → Nat
  | [] => 0
  | '\\' :: '\r' :: _ :: rest => quotedLength quote rest + 3
  | '\\' :: _ :: rest => quotedLength quote rest + 2
  | '\n' :: _ => 0
  | char :: rest => if char = quote then 1 else quotedLength quote rest + 1

/--
The characters of a string inside a template's substitution, after its opening quote.  Here a
backslash hides one character only.
-/
def nestedQuotedLength (quote : Char) : Text → Nat
  | [] => 0
  | '\\' :: _ :: rest => nestedQuotedLength quote rest + 2
  | '\n' :: _ => 0
  | char :: rest => if char = quote then 1 else nestedQuotedLength quote rest + 1

/-- Passing over part of a text leaves less than the text and what announced that part. -/
theorem length_drop_lt (count : Nat) (rest : Text) (announcement : Nat) :
    (rest.drop count).length < rest.length + (announcement + 1) :=
  Nat.lt_of_le_of_lt (List.drop_sublist count rest).length_le
    (Nat.lt_add_of_pos_right (Nat.succ_pos announcement))

mutual

/--
The characters of a template literal after its opening backtick: through the closing backtick, or
all.  A backslash hides the character after it, and a substitution is passed over whole.
-/
def templateLength : Text → Nat
  | [] => 0
  | '\\' :: _ :: rest => templateLength rest + 2
  | '\x60' :: _ => 1
  | '$' :: '{' :: rest =>
      let length := substitutionLength 0 rest
      templateLength (rest.drop length) + length + 2
  | _ :: rest => templateLength rest + 1
termination_by text => text.length
decreasing_by
  · exact Nat.lt_add_of_pos_right Nat.two_pos
  · exact Nat.lt_add_of_pos_right Nat.two_pos
  · exact length_drop_lt _ rest 1
  · exact Nat.lt_succ_self _

/--
The characters of a substitution after its opening `${`, or after more of it with `depth` braces
still open inside: through its closing brace, or all.  Strings, comments and templates in it are
passed over whole.
-/
def substitutionLength (depth : Nat) : Text → Nat
  | [] => 0
  | '\x60' :: rest =>
      let length := templateLength rest
      substitutionLength depth (rest.drop length) + length + 1
  | '/' :: '/' :: rest =>
      let length := lineCommentLength rest
      substitutionLength depth (rest.drop length) + length + 2
  | '/' :: '*' :: rest =>
      let length := blockCommentLength rest
      substitutionLength depth (rest.drop length) + length + 2
  | '{' :: rest => substitutionLength (depth + 1) rest + 1
  | '}' :: rest =>
      match depth with
      | 0 => 1
      | outer + 1 => substitutionLength outer rest + 1
  | char :: rest =>
      if char = '\'' ∨ char = '"' then
        let length := nestedQuotedLength char rest
        substitutionLength depth (rest.drop length) + length + 1
      else substitutionLength depth rest + 1
termination_by text => text.length
decreasing_by
  · exact Nat.lt_succ_self _
  · exact length_drop_lt _ rest 0
  · exact length_drop_lt _ rest 1
  · exact length_drop_lt _ rest 1
  · exact Nat.lt_succ_self _
  · exact Nat.lt_succ_self _
  · exact length_drop_lt _ rest 0
  · exact Nat.lt_succ_self _

end

/--
The characters of a regular expression after its opening slash, its flags included.  A slash in a
character class does not end it.  If the line ends first, the slash was a division.
-/
def regexLength? (inClass : Bool) : Text → Option Nat
  | [] => none
  | '\\' :: rest =>
      match rest with
      | [] => none
      | _ :: rest => (regexLength? inClass rest).map (· + 2)
  | char :: rest =>
      if char = '\n' ∨ char = '\r' then none
      else if char = '/' ∧ inClass = false then some ((rest.takeWhile Char.isAlpha).length + 1)
      else
        let inClass := if char = '[' then true else if char = ']' then false else inClass
        (regexLength? inClass rest).map (· + 1)

example : quotedLength '"' "a\\\"b\" + 1".toList = 5 := by decide
example : templateLength "a$\x7b \x60x$\x7by\x7d\x60 \x7d\x60 + 1".toList = 14 := by decide +kernel
example : regexLength? false "[/]+/gi.test".toList = some 7 := by decide

end ComponentTsx.Literal
