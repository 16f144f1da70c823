import ComponentTsx.Text

/-!
# Texts with carriage returns before their line feeds

A line ends with a line feed, or with a carriage return and a line feed.  This
module turns texts of the first style into the second (`Text.crlf`).  Each
character stands for itself or for its pair, so the change goes through
concatenation, and parts are cut from the changed text at the lengths of their
changed texts (`take_crlf`, `drop_crlf`).
-/

namespace ComponentTsx.Text

set_option autoImplicit false

/-- The text with a carriage return before each line feed. -/
def crlf (text : Text) : Text :=
  text.flatMap fun char => if char = '\n' then ['\r', '\n'] else [char]

@[simp] theorem crlf_nil : crlf [] = [] := rfl

@[simp] theorem crlf_break (rest : Text) : crlf ('\n' :: rest) = '\r' :: '\n' :: crlf rest := rfl

theorem crlf_cons {char : Char} (noBreak : char ≠ '\n') (rest : Text) :
    crlf (char :: rest) = char :: crlf rest := by
  simp [crlf, noBreak]

@[simp] theorem crlf_append (first second : Text) :
    crlf (first ++ second) = crlf first ++ crlf second := by
  simp [crlf]

/-- A text without line feeds stays as it is. -/
theorem crlf_of_notMem {text : Text} (noBreak : '\n' ∉ text) : crlf text = text := by
  induction text with
  | nil => rfl
  | cons char rest ih =>
      rw [List.mem_cons, not_or] at noBreak
      rw [crlf_cons (Ne.symm noBreak.1), ih noBreak.2]

/-- Before each line feed there is a carriage return. -/
theorem return_mem_crlf {text : Text} (isBreak : '\n' ∈ text) : '\r' ∈ crlf text := by
  obtain ⟨before, after, rfl⟩ := List.append_of_mem isBreak
  simp

/-- Only a line feed changes how the text begins. -/
theorem head?_crlf {text : Text} {char : Char} (noReturn : char ≠ '\r') (noBreak : char ≠ '\n') :
    (crlf text).head? = some char ↔ text.head? = some char := by
  cases text with
  | nil => rfl
  | cons first rest =>
      by_cases isBreak : first = '\n'
      · simp [isBreak, noReturn.symm, noBreak.symm]
      · simp [crlf_cons isBreak]

theorem take_crlf (text : Text) (length : Nat) :
    (crlf text).take (crlf (text.take length)).length = crlf (text.take length) := by
  have whole : crlf text = crlf (text.take length) ++ crlf (text.drop length) := by
    rw [← crlf_append, List.take_append_drop]
  rw [whole, List.take_left]

theorem drop_crlf (text : Text) (length : Nat) :
    (crlf text).drop (crlf (text.take length)).length = crlf (text.drop length) := by
  have whole : crlf text = crlf (text.take length) ++ crlf (text.drop length) := by
    rw [← crlf_append, List.take_append_drop]
  rw [whole, List.drop_left]

end ComponentTsx.Text
