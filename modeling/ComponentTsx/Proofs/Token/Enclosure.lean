import ComponentTsx.Token.Literal

/-!
# Templates measured by what encloses a place

A template holds substitutions, and a substitution holds code with braces and
with templates in it.  The two lengths call each other, but both are one scan
with a stack of what is open at a place (`enclosedLength`): a character is
passed over with the escape, the string or the comment that it begins
(`Enclosure.passed`), and the innermost enclosure stays, closes or has another
one opened in it (`Enclosure.after`).

Each fact about templates then needs one look at a single step and one
induction over the text, whatever the nesting.
-/

namespace ComponentTsx.Literal

set_option autoImplicit false

/-- What encloses a place in a template literal. -/
inductive Enclosure where
  /-- The characters of a template. -/
  | template
  /-- The code of a substitution, with some braces open in it. -/
  | substitution (depth : Nat)

namespace Enclosure

/-- How many characters after a first one are passed over with it. -/
def passed (enclosure : Enclosure) (first : Char) (rest : Text) : Nat :=
  match enclosure with
  | template => if first = '\\' ∨ first = '$' ∧ rest.head? = some '{' then min 1 rest.length else 0
  | substitution _ =>
      if first = '\'' ∨ first = '"' then nestedQuotedLength first rest
      else if first = '/' ∧ rest.head? = some '/' then lineCommentLength rest.tail + 1
      else if first = '/' ∧ rest.head? = some '*' then blockCommentLength rest.tail + 1
      else 0

/-- What an enclosure becomes at a character, the innermost one first. -/
def after (enclosure : Enclosure) (first : Char) (rest : Text) : List Enclosure :=
  match enclosure with
  | template =>
      if first = '\x60' then []
      else if first = '$' ∧ rest.head? = some '{' then [substitution 0, template]
      else [template]
  | substitution depth =>
      if first = '\x60' then [template, substitution depth]
      else if first = '{' then [substitution (depth + 1)]
      else if first = '}' then
        match depth with
        | 0 => []
        | outer + 1 => [substitution outer]
      else [substitution depth]

/-- A character of a substitution that is no bracket of its own leaves it as it is. -/
theorem after_substitution_char {depth : Nat} {first : Char} {rest : Text}
    (noTemplate : first ≠ '\x60') (noOpen : first ≠ '{') (noClose : first ≠ '}') :
    after (substitution depth) first rest = [substitution depth] :=
  (if_neg noTemplate).trans ((if_neg noOpen).trans (if_neg noClose))

theorem passed_substitution_cons (depth : Nat) (first next : Char) (rest : Text) :
    passed (substitution depth) first (next :: rest) =
      if first = '\'' ∨ first = '"' then nestedQuotedLength first (next :: rest)
      else if first = '/' ∧ next = '/' then lineCommentLength rest + 1
      else if first = '/' ∧ next = '*' then blockCommentLength rest + 1
      else 0 := by
  simp [passed]

end Enclosure

/-- The characters through the end of the last of some enclosures, or all of them. -/
def enclosedLength : List Enclosure → Text → Nat
  | [], _ => 0
  | _ :: _, [] => 0
  | enclosure :: outer, first :: rest =>
      let length := enclosure.passed first rest
      enclosedLength (enclosure.after first rest ++ outer) (rest.drop length) + length + 1
termination_by _ text => text.length
decreasing_by exact length_drop_lt _ rest 0

@[simp] theorem enclosedLength_nil (text : Text) : enclosedLength [] text = 0 := by
  rw [enclosedLength]

@[simp] theorem enclosedLength_end (stack : List Enclosure) : enclosedLength stack [] = 0 := by
  cases stack <;> rw [enclosedLength]

theorem enclosedLength_cons (enclosure : Enclosure) (outer : List Enclosure) (first : Char)
    (rest : Text) :
    enclosedLength (enclosure :: outer) (first :: rest) =
      enclosedLength (enclosure.after first rest ++ outer)
        (rest.drop (enclosure.passed first rest)) + enclosure.passed first rest + 1 := by
  rw [enclosedLength]

/-- An open enclosure takes at least one character, if there is one. -/
theorem enclosedLength_pos (enclosure : Enclosure) (outer : List Enclosure) (first : Char)
    (rest : Text) : 0 < enclosedLength (enclosure :: outer) (first :: rest) := by
  rw [enclosedLength_cons]
  exact Nat.succ_pos _

/-- A character that begins nothing in its enclosure is passed over alone. -/
theorem enclosedLength_plain {enclosure : Enclosure} {first : Char} {rest : Text}
    (alone : enclosure.passed first rest = 0) (stays : enclosure.after first rest = [enclosure])
    (outer : List Enclosure) :
    enclosedLength (enclosure :: outer) (first :: rest) =
      enclosedLength (enclosure :: outer) rest + 1 := by
  rw [enclosedLength_cons, alone, stays, List.drop_zero]
  rfl

/-! ## The lengths of templates and substitutions -/

/-- Some enclosures are passed over by a length, whatever is open around them. -/
def Passes (stack : List Enclosure) (text : Text) (length : Nat) : Prop :=
  ∀ outer, enclosedLength (stack ++ outer) text =
    enclosedLength outer (text.drop length) + length

namespace Passes

theorem closed (text : Text) : Passes [] text 0 := fun _ => rfl

theorem atEnd (stack : List Enclosure) : Passes stack [] 0 := by
  intro outer
  simp

/-- The inner enclosures are passed over first, and then the outer ones. -/
theorem append {inner outer : List Enclosure} {text : Text} {first second : Nat}
    (passes : Passes inner text first) (passesLater : Passes outer (text.drop first) second) :
    Passes (inner ++ outer) text (second + first) := by
  intro more
  rw [List.append_assoc, passes, passesLater, List.drop_drop, Nat.add_comm first second,
    Nat.add_assoc]

/-- An enclosure is passed over by a step and by what the step leaves open. -/
theorem step {enclosure : Enclosure} {inner : List Enclosure} {first : Char} {rest : Text}
    {length : Nat} (count : Nat) (passed : enclosure.passed first rest = count)
    (after : enclosure.after first rest = inner) (passes : Passes inner (rest.drop count) length) :
    Passes [enclosure] (first :: rest) (length + count + 1) := by
  intro outer
  rw [List.singleton_append, enclosedLength_cons, passed, after, passes, List.drop_succ_cons,
    List.drop_drop, Nat.add_comm count length, Nat.add_assoc, Nat.add_assoc, Nat.add_assoc]

end Passes

theorem head?_ne_some {rest : Text} {char : Char} (other : ∀ tail, rest = char :: tail → False) :
    rest.head? ≠ some char := by
  intro head
  obtain ⟨tail, rfl⟩ := List.head?_eq_some_iff.mp head
  exact other tail rfl

theorem templateLength_char {char : Char} {rest : Text}
    (noEscape : ∀ head tail, char = '\\' → rest = head :: tail → False)
    (noEnd : char = '\x60' → False)
    (noSubstitution : ∀ tail, char = '$' → rest = '{' :: tail → False) :
    templateLength (char :: rest) = templateLength rest + 1 := by
  rw [templateLength] <;> assumption

theorem substitutionLength_char {depth : Nat} {char : Char} {rest : Text}
    (noTemplate : char = '\x60' → False)
    (noLine : ∀ tail, char = '/' → rest = '/' :: tail → False)
    (noBlock : ∀ tail, char = '/' → rest = '*' :: tail → False)
    (noOpen : char = '{' → False) (noClose : char = '}' → False) :
    substitutionLength depth (char :: rest) =
      if char = '\'' ∨ char = '"' then
        substitutionLength depth (rest.drop (nestedQuotedLength char rest)) +
          nestedQuotedLength char rest + 1
      else substitutionLength depth rest + 1 := by
  rw [substitutionLength] <;> assumption

/-- A template is passed over by its length, and so is a substitution. -/
theorem passes_template_and_substitution :
    (∀ text, Passes [.template] text (templateLength text)) ∧
      ∀ depth text, Passes [.substitution depth] text (substitutionLength depth text) := by
  apply templateLength.mutual_induct
    (fun text => Passes [.template] text (templateLength text))
    (fun depth text => Passes [.substitution depth] text (substitutionLength depth text))
  case case1 => simpa [templateLength] using Passes.atEnd _
  case case2 =>
    intro hidden rest ih
    rw [templateLength]
    exact .step 1 (by simp [Enclosure.passed]) (by simp [Enclosure.after]) ih
  case case3 =>
    intro rest
    rw [templateLength]
    exact .step 0 rfl rfl (.closed _)
  case case4 =>
    intro rest length inside ih
    rw [templateLength]
    exact .step 1 (by simp [Enclosure.passed]) (by simp [Enclosure.after])
      (inside.append ih)
  case case5 =>
    intro char rest noEscape noEnd noSubstitution ih
    rw [templateLength_char noEscape noEnd noSubstitution]
    have noOpening : ¬ (char = '$' ∧ rest.head? = some '{') := fun opening =>
      head?_ne_some (noSubstitution · opening.1) opening.2
    refine .step 0 ?_ ?_ ih
    · by_cases isEscape : char = '\\'
      · cases rest with
        | nil => simp [Enclosure.passed]
        | cons hidden rest => exact absurd rfl (noEscape hidden rest isEscape)
      · simp [Enclosure.passed, isEscape, noOpening]
    · exact (if_neg noEnd).trans (if_neg noOpening)
  case case6 => exact fun depth => by simpa [substitutionLength] using Passes.atEnd _
  case case7 =>
    intro depth rest length inside ih
    rw [substitutionLength]
    exact .step 0 (by simp [Enclosure.passed]) (by simp [Enclosure.after])
      (inside.append ih)
  case case8 =>
    intro depth rest length ih
    rw [substitutionLength]
    exact .step (lineCommentLength rest + 1) (by simp [Enclosure.passed])
      (by simp [Enclosure.after]) ih
  case case9 =>
    intro depth rest length ih
    rw [substitutionLength]
    exact .step (blockCommentLength rest + 1) (by simp [Enclosure.passed])
      (by simp [Enclosure.after]) ih
  case case10 =>
    intro depth rest ih
    rw [substitutionLength]
    exact .step 0 (by simp [Enclosure.passed]) (by simp [Enclosure.after]) ih
  case case11 =>
    intro rest
    rw [substitutionLength]
    exact .step 0 (by simp [Enclosure.passed]) (by simp [Enclosure.after]) (.closed _)
  case case12 =>
    intro rest outer ih
    rw [substitutionLength]
    exact .step 0 (by simp [Enclosure.passed]) (by simp [Enclosure.after]) ih
  case case13 =>
    intro depth char rest noTemplate noLine noBlock noOpen noClose isQuote length ih
    rw [substitutionLength_char noTemplate noLine noBlock noOpen noClose, if_pos isQuote]
    exact .step _ (by simp [Enclosure.passed, isQuote])
      (Enclosure.after_substitution_char noTemplate noOpen noClose) ih
  case case14 =>
    intro depth char rest noTemplate noLine noBlock noOpen noClose noQuote ih
    rw [substitutionLength_char noTemplate noLine noBlock noOpen noClose, if_neg noQuote]
    have noLine : ¬ (char = '/' ∧ rest.head? = some '/') := fun opening =>
      head?_ne_some (noLine · opening.1) opening.2
    have noBlock : ¬ (char = '/' ∧ rest.head? = some '*') := fun opening =>
      head?_ne_some (noBlock · opening.1) opening.2
    exact .step 0 (by simp [Enclosure.passed, noQuote, noLine, noBlock])
      (Enclosure.after_substitution_char noTemplate noOpen noClose) ih

/-- The length of a template is the length of what it encloses. -/
theorem templateLength_eq (text : Text) :
    templateLength text = enclosedLength [.template] text := by
  have passes := passes_template_and_substitution.1 text []
  rw [List.append_nil, enclosedLength_nil, Nat.zero_add] at passes
  exact passes.symm

end ComponentTsx.Literal
