import ComponentTsx.Text

/-!
# Tokens of a JSON text

A JSON text consists of punctuation and scalars, with blanks between them.  A
string may spell half of a surrogate pair.  Such a string is well formed but has
no text, and it is left to the reader of the value whether that matters.
-/

namespace ComponentTsx.Json

set_option autoImplicit false

/-- A scalar; numbers are told from other scalars, but not from each other. -/
inductive Scalar where
  | null
  | bool (value : Bool)
  | number
  /-- A string and its text, if it has one. -/
  | string (text : Option Text)
deriving DecidableEq, Repr

/-- A bracket, a brace, a comma, a colon or a scalar. -/
inductive Token where
  | punctuation (char : Char)
  | scalar (value : Scalar)
deriving DecidableEq, Repr

/-- The blanks of JSON. -/
def isBlank (char : Char) : Bool := char = ' ' || char = '\n' || char = '\t' || char = '\r'

/-- Whether a character is punctuation. -/
def isPunctuation (char : Char) : Bool :=
  char = '[' || char = ']' || char = '{' || char = '}' || char = ',' || char = ':'

/-! ## Numbers -/

/-- The number of digits a text begins with, if there are any. -/
def digits? (text : Text) : Option Nat :=
  let count := (text.takeWhile Char.isDigit).length
  if count = 0 then none else some count

/-- The characters of the whole part of a number: one zero, or digits that begin with another. -/
def wholeLength? : Text → Option Nat
  | '0' :: _ => some 1
  | text => digits? text

/-- The characters of a fraction, its point included; none where a point lacks digits. -/
def fractionLength? : Text → Option Nat
  | '.' :: rest => (digits? rest).map (· + 1)
  | _ => some 0

/-- The characters of an exponent, its letter and sign included; none where digits are lacking. -/
def exponentLength? : Text → Option Nat
  | [] => some 0
  | letter :: rest =>
      if letter = 'e' ∨ letter = 'E' then
        match rest with
        | '+' :: digits => (digits? digits).map (· + 2)
        | '-' :: digits => (digits? digits).map (· + 2)
        | digits => (digits? digits).map (· + 1)
      else some 0

/-- The characters of the number that a text begins with. -/
def numberLength? (text : Text) : Option Nat := do
  let sign := if text.head? = some '-' then 1 else 0
  let whole ← wholeLength? (text.drop sign)
  let fraction ← fractionLength? (text.drop (sign + whole))
  let exponent ← exponentLength? (text.drop (sign + whole + fraction))
  return sign + whole + fraction + exponent

/-! ## Strings -/

/-- The value of a hexadecimal digit. -/
def hexValue? (char : Char) : Option Nat :=
  if '0' ≤ char ∧ char ≤ '9' then some (char.toNat - 48)
  else if 'a' ≤ char ∧ char ≤ 'f' then some (char.toNat - 87)
  else if 'A' ≤ char ∧ char ≤ 'F' then some (char.toNat - 55)
  else none

/-- The number that four hexadecimal digits spell. -/
def hexUnit? (first second third fourth : Char) : Option Nat := do
  return (((← hexValue? first) * 16 + (← hexValue? second)) * 16 + (← hexValue? third)) * 16 +
    (← hexValue? fourth)

/-- The character that a letter stands for after a backslash. -/
def unescape? (char : Char) : Option Char :=
  match char with
  | '"' => some '"'
  | '\\' => some '\\'
  | '/' => some '/'
  | 'b' => some '\x08'
  | 'f' => some '\x0c'
  | 'n' => some '\n'
  | 'r' => some '\r'
  | 't' => some '\t'
  | _ => none

/-- A string in UTF-16 code units, and the number of characters through its closing quote. -/
def stringUnits? : Text → Option (List Nat × Nat)
  | [] => none
  | '"' :: _ => some ([], 1)
  | '\\' :: 'u' :: first :: second :: third :: fourth :: rest => do
      let unit ← hexUnit? first second third fourth
      let (units, length) ← stringUnits? rest
      return (unit :: units, length + 6)
  | '\\' :: char :: rest => do
      let unescaped ← unescape? char
      let (units, length) ← stringUnits? rest
      return (unescaped.toNat :: units, length + 2)
  | char :: rest =>
      if char = '\\' ∨ char.toNat < 0x20 then none
      else do
        let (units, length) ← stringUnits? rest
        let code := char.toNat
        let own :=
          if code < 0x10000 then [code]
          else [0xD800 + (code - 0x10000) / 0x400, 0xDC00 + (code - 0x10000) % 0x400]
        return (own ++ units, length + 1)

/-- The text of UTF-16 code units, unless half of a surrogate pair stands alone. -/
def decodeUnits? : List Nat → Option Text
  | [] => some []
  | unit :: rest =>
      if unit < 0xD800 ∨ 0xDFFF < unit then (decodeUnits? rest).map (Char.ofNat unit :: ·)
      else
        match rest with
        | [] => none
        | next :: rest =>
            if unit ≤ 0xDBFF ∧ 0xDC00 ≤ next ∧ next ≤ 0xDFFF then
              (decodeUnits? rest).map
                (Char.ofNat (0x10000 + (unit - 0xD800) * 0x400 + (next - 0xDC00)) :: ·)
            else none

/-! ## All tokens -/

/-- The words that are scalars. -/
def words : List (Text × Scalar) :=
  [("null".toList, .null), ("true".toList, .bool true), ("false".toList, .bool false)]

/-- The token that begins with a character, and how many characters follow that one. -/
def readToken? (first : Char) (rest : Text) : Option (Token × Nat) :=
  if isPunctuation first then some (.punctuation first, 0)
  else if first = '"' then
    (stringUnits? rest).map fun (units, length) => (.scalar (.string (decodeUnits? units)), length)
  else
    match words.find? (·.1.isPrefixOf (first :: rest)) with
    | some (word, scalar) => some (.scalar scalar, word.length - 1)
    | none => (numberLength? (first :: rest)).map fun length => (.scalar .number, length - 1)

/-- The tokens of a JSON text, if it consists of tokens and blanks. -/
def tokens? : Text → Option (List Token)
  | [] => some []
  | first :: rest =>
      if isBlank first then tokens? rest
      else
        match readToken? first rest with
        | some (token, length) => (tokens? (rest.drop length)).map (token :: ·)
        | none => none
termination_by text => text.length

end ComponentTsx.Json
