import ComponentTsx.Proofs.Statement.Append
import ComponentTsx.Proofs.Statement.Relocation

/-!
# Tokens that no statement ends in

The splitter looks at a token together with its depth, the tokens of the
statement before it and the tokens after it, and either ends the statement there
or goes on (`cuts`).  Tokens none of which ends a statement only become part of
the pending one (`splitFrom_append_of_uncut`).  That is so

* inside brackets, whatever the tokens are (`splitFrom_append_inside`),
* of line breaks between a token and one that goes on from it
  (`splitFrom_append_breaks`), and
* of other tokens if there is no semicolon among them outside brackets, and no
  closing brace before a word that begins a statement
  (`Undivided.splitFrom_append`).
-/

namespace ComponentTsx.Statement

set_option autoImplicit false

/-- Whether the splitter ends a statement at a token that it comes to at a depth. -/
def cuts (depth : Nat) (pending : List Token) (token : Token) (rest : List Token) : Bool :=
  isLineBreak token && depth = 0 && !continuesAcross pending rest ||
    endsWith (depthAfter depth token) token rest

/-- A statement ends where no bracket is open. -/
theorem depthAfter_of_cuts {depth : Nat} {pending rest : List Token} {token : Token}
    (ends : cuts depth pending token rest) : depthAfter depth token = 0 := by
  rcases Bool.or_eq_true_iff.mp ends with breaks | ends
  · exact depthAfter_of_breaks breaks
  · exact eq_zero_of_endsWith ends

theorem splitFrom_cons_of_uncut {depth : Nat} {pending rest : List Token} {token : Token}
    (noEnd : token.kind ≠ .endOfFile) (uncut : cuts depth pending token rest = false) :
    splitFrom depth pending (token :: rest) =
      splitFrom (depthAfter depth token) (token :: pending) rest := by
  obtain ⟨noBreak, goesOn⟩ := Bool.or_eq_false_iff.mp uncut
  rw [splitFrom, if_neg noEnd, noBreak, if_neg Bool.false_ne_true, goesOn,
    if_neg Bool.false_ne_true]

/-- Tokens that end no statement are part of the pending one. -/
theorem splitFrom_append_of_uncut {depth : Nat} {pending tokens rest : List Token}
    (noEnd : ∀ token ∈ tokens, token.kind ≠ .endOfFile)
    (uncut : ∀ before token after, tokens = before ++ token :: after →
      cuts (depthThrough depth before) (before.reverse ++ pending) token (after ++ rest) = false) :
    splitFrom depth pending (tokens ++ rest) =
      splitFrom (depthThrough depth tokens) (tokens.reverse ++ pending) rest := by
  induction tokens generalizing depth pending with
  | nil => rfl
  | cons token tokens ih =>
      obtain ⟨notEnd, noEnd⟩ := List.forall_mem_cons.mp noEnd
      have here : cuts depth pending token (tokens ++ rest) = false := uncut [] token tokens rfl
      rw [List.cons_append, splitFrom_cons_of_uncut notEnd here,
        ih noEnd fun before other after split => ?_]
      · simp only [List.reverse_cons, List.append_assoc, List.cons_append, List.nil_append]
        rfl
      · have later := uncut (token :: before) other after (congrArg (token :: ·) split)
        rw [List.reverse_cons, List.append_assoc] at later
        exact later

/-- Inside brackets no statement ends. -/
theorem splitFrom_append_inside {depth : Nat} {pending tokens : List Token}
    (noEnd : ∀ token ∈ tokens, token.kind ≠ .endOfFile)
    (inside : ∀ part, part <+: tokens → 0 < depthThrough depth part) (rest : List Token) :
    splitFrom depth pending (tokens ++ rest) =
      splitFrom (depthThrough depth tokens) (tokens.reverse ++ pending) rest := by
  refine splitFrom_append_of_uncut noEnd fun before token after split => ?_
  refine Bool.eq_false_iff.mpr fun ends => ?_
  have reached := inside (before ++ [token]) ⟨after, by rw [split, List.append_assoc]; rfl⟩
  rw [depthThrough_append] at reached
  exact Nat.ne_of_gt reached (depthAfter_of_cuts ends)

/-! ## Line breaks between tokens -/

theorem significant_of_breaks {breaks : List Token}
    (areBreaks : ∀ token ∈ breaks, isLineBreak token) : significant breaks = [] :=
  List.filter_eq_nil_iff.mpr fun token member => by simp [areBreaks token member]

/-- Line breaks before it do not change whether a token goes on with the line before. -/
theorem continuesAcross_append_breaks {breaks : List Token}
    (areBreaks : ∀ token ∈ breaks, isLineBreak token) (pending rest : List Token) :
    continuesAcross pending (breaks ++ rest) = continuesAcross pending rest := by
  have none : breaks.find? (!isLineBreak ·) = none := by simpa using areBreaks
  simp only [continuesAcross, List.find?_append, none, Option.none_or]

/-- Line breaks at which no statement ends are part of the pending one. -/
theorem splitFrom_append_breaks {depth : Nat} {breaks pending rest : List Token}
    (areBreaks : ∀ token ∈ breaks, isLineBreak token)
    (goesOn : breaks ≠ [] → 0 < depth ∨ continuesAcross pending rest) :
    splitFrom depth pending (breaks ++ rest) =
      splitFrom depth (breaks.reverse ++ pending) rest := by
  have level (part : List Token) (among : ∀ token ∈ part, token ∈ breaks) :
      depthThrough depth part = depth :=
    depthThrough_of_level (fun token member =>
      depthAfter_of_isLineBreak (areBreaks token (among token member))) depth
  rw [splitFrom_append_of_uncut, level breaks fun _ => id]
  · intro token member isEnd
    exact TokenKind.noConfusion ((kind_of_isLineBreak (areBreaks token member)).symm.trans isEnd)
  · intro before token after split
    have isBreak := areBreaks token (by simp [split])
    have areBefore : ∀ other ∈ before.reverse, isLineBreak other :=
      fun other member => areBreaks other (by simp [split, List.mem_reverse.mp member])
    have noEnd : endsWith depth token (after ++ rest) = false := by
      rw [endsWith, kind_of_isLineBreak isBreak, Bool.and_false]
    rw [level before fun other member => by simp [split, member], cuts,
      depthAfter_of_isLineBreak isBreak, noEnd, Bool.or_false]
    rcases goesOn (by simp [split]) with inside | across
    · simp [Nat.ne_of_gt inside]
    · have same : significant (before.reverse ++ pending) = significant pending := by
        rw [significant_append, significant_of_breaks areBefore, List.nil_append]
      rw [continuesAcross_congr same, continuesAcross_append_breaks fun other member =>
        areBreaks other (by simp [split, member]), across]
      simp

/-- A line break that the statement does not go on after ends it. -/
theorem splitFrom_cons_of_break {token : Token} (isBreak : isLineBreak token)
    {pending rest : List Token} (ends : continuesAcross pending rest = false) :
    splitFrom 0 pending (token :: rest) =
      ⟨pending.reverse, token :: rest⟩ :: splitFrom 0 [] rest := by
  have noEnd : token.kind ≠ .endOfFile := by
    rw [kind_of_isLineBreak isBreak]
    exact TokenKind.noConfusion
  rw [splitFrom, if_neg noEnd, if_pos (by simp [isBreak, ends])]

/-! ## Tokens without line breaks -/

/-- Tokens at none of which a statement ends, unless it ends at a line break. -/
def Undivided : Nat → List Token → Prop
  | _, [] => True
  | depth, token :: rest =>
      endsWith (depthAfter depth token) token rest = false ∧
        Undivided (depthAfter depth token) rest

instance decidableUndivided : (depth : Nat) → (tokens : List Token) →
    Decidable (Undivided depth tokens)
  | _, [] => inferInstanceAs (Decidable True)
  | depth, token :: rest =>
      let _ := decidableUndivided (depthAfter depth token) rest
      inferInstanceAs (Decidable (_ ∧ _))

/-- Where tokens stand plays no part in whether a statement ends in them. -/
theorem Undivided.map {move : Token → Token} (keeps : Token.KeepsWords move) {depth : Nat}
    {tokens : List Token} (undivided : Undivided depth tokens) :
    Undivided depth (tokens.map move) := by
  induction tokens generalizing depth with
  | nil => trivial
  | cons token rest ih =>
      obtain ⟨here, undivided⟩ := undivided
      rw [List.map_cons, Undivided, depthAfter_move keeps, endsWith_move keeps]
      exact ⟨here, ih undivided⟩

/-- A token that ends no statement, whatever follows it. -/
def NeverEnds (token : Token) : Prop := token.kind ≠ .semicolon ∧ token.kind ≠ .closing .brace

theorem NeverEnds.endsWith_eq_false {token : Token} (neverEnds : NeverEnds token) (depth : Nat)
    (rest : List Token) : endsWith depth token rest = false := by
  obtain ⟨noSemicolon, noBrace⟩ := neverEnds
  rw [endsWith]
  split <;> simp_all

theorem undivided_append {front back : List Token} (neverEnd : ∀ token ∈ front, NeverEnds token)
    (depth : Nat) :
    Undivided depth (front ++ back) ↔ Undivided (depthThrough depth front) back := by
  induction front generalizing depth with
  | nil => rfl
  | cons token front ih =>
      obtain ⟨here, later⟩ := List.forall_mem_cons.mp neverEnd
      rw [List.cons_append, Undivided, and_iff_right (here.endsWith_eq_false _ _), ih later]
      rfl

theorem undivided_of_neverEnds {tokens : List Token} (neverEnd : ∀ token ∈ tokens, NeverEnds token)
    (depth : Nat) : Undivided depth tokens := by
  have whole : Undivided depth (tokens ++ []) := (undivided_append neverEnd depth).mpr trivial
  rwa [List.append_nil] at whole

/-- Tokens in which no statement ends are part of the pending one, unless they end it themselves. -/
theorem Undivided.splitFrom_append {depth : Nat} {tokens rest : List Token}
    (undivided : Undivided depth tokens)
    (plain : ∀ token ∈ tokens, token.kind ≠ .endOfFile ∧ ¬ isLineBreak token)
    (noStart : rest.head?.any (·.isOneOf startWords) = false) (pending : List Token) :
    splitFrom depth pending (tokens ++ rest) =
      splitFrom (depthThrough depth tokens) (tokens.reverse ++ pending) rest := by
  induction tokens generalizing depth pending with
  | nil => rfl
  | cons token tokens ih =>
      obtain ⟨here, undivided⟩ := undivided
      obtain ⟨⟨noEnd, noBreak⟩, plain⟩ := List.forall_mem_cons.mp plain
      have ends : endsWith (depthAfter depth token) token (tokens ++ rest) = false := by
        cases tokens with
        | nil =>
            rw [← here, List.nil_append, endsWith, endsWith, noStart]
            rfl
        | cons next tokens => exact here
      have uncut : cuts depth pending token (tokens ++ rest) = false := by
        rw [cuts, ends]
        simp [noBreak]
      rw [List.cons_append, splitFrom_cons_of_uncut noEnd uncut, ih undivided plain,
        List.reverse_cons, List.append_assoc]
      rfl

end ComponentTsx.Statement
