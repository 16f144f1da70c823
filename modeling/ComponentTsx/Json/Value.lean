import ComponentTsx.Json.Token

/-!
# JSON values

A value is a scalar, an array or an object.  An object keeps its members as they
are written, so that a key which occurs twice can be found out.

Each reader tells how many tokens it took.
-/

namespace ComponentTsx.Json

set_option autoImplicit false

/-- A JSON value.  A key is none when it spells half of a surrogate pair. -/
inductive Value where
  | scalar (scalar : Scalar)
  | array (items : List Value)
  | object (members : List (Option Text × Value))

/-- What follows the first of the tokens left after some were taken is shorter than the tokens. -/
theorem length_lt_of_drop_eq {tokens rest : List Token} {first : Token} {length : Nat}
    (h : tokens.drop length = first :: rest) : rest.length < tokens.length := by
  have hlength := congrArg List.length h
  rw [List.length_drop, List.length_cons] at hlength
  omega

mutual

/-- The value that tokens begin with. -/
def readValue : List Token → Option (Value × Nat)
  | [] => none
  | .scalar scalar :: _ => some (.scalar scalar, 1)
  | .punctuation '[' :: .punctuation ']' :: _ => some (.array [], 2)
  | .punctuation '[' :: rest =>
      (readItems rest).map fun (items, length) => (.array items, length + 1)
  | .punctuation '{' :: .punctuation '}' :: _ => some (.object [], 2)
  | .punctuation '{' :: rest =>
      (readMembers rest).map fun (members, length) => (.object members, length + 1)
  | .punctuation _ :: _ => none
termination_by tokens => (tokens.length, 0)

/-- The items of an array, of which there is at least one, through its closing bracket. -/
def readItems (tokens : List Token) : Option (List Value × Nat) :=
  match readValue tokens with
  | none => none
  | some (item, length) =>
      match _h : tokens.drop length with
      | .punctuation ']' :: _ => some ([item], length + 1)
      | .punctuation ',' :: rest =>
          (readItems rest).map fun (items, more) => (item :: items, length + 1 + more)
      | _ => none
termination_by (tokens.length, 1)
decreasing_by
  · exact Prod.Lex.right _ Nat.zero_lt_one
  · exact Prod.Lex.left _ _ (length_lt_of_drop_eq _h)

/-- The members of an object, of which there is at least one, through its closing brace. -/
def readMembers : List Token → Option (List (Option Text × Value) × Nat)
  | .scalar (.string key) :: .punctuation ':' :: tokens =>
      match readValue tokens with
      | none => none
      | some (value, length) =>
          match _h : tokens.drop length with
          | .punctuation '}' :: _ => some ([(key, value)], length + 3)
          | .punctuation ',' :: rest =>
              (readMembers rest).map fun (members, more) =>
                ((key, value) :: members, length + 3 + more)
          | _ => none
  | _ => none
termination_by tokens => (tokens.length, 1)
decreasing_by
  · exact Prod.Lex.left _ _ (Nat.lt_add_of_pos_right (Nat.zero_lt_succ 1))
  · exact Prod.Lex.left _ _
      (Nat.lt_trans (length_lt_of_drop_eq _h) (Nat.lt_add_of_pos_right (Nat.zero_lt_succ 1)))

end

/-- The value of a JSON text that holds nothing else. -/
def parse? (text : Text) : Option Value := do
  let tokens ← tokens? text
  let (value, length) ← readValue tokens
  if length = tokens.length then some value else none

end ComponentTsx.Json
