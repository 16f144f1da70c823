import ComponentTsx.Proofs.Statement.Uncut
import Mathlib.Data.List.Infix

/-!
# Level brackets

Brackets of some kinds are level in tokens if, reading on, no more of them have
been closed than opened, and in the end as many (`IsLevel`).  Which kind closes
which does not matter here.  A count of open brackets that cannot fall below
zero then does not fall below where it starts, and ends there
(`le_countThrough`, `countThrough_eq`).

The splitter counts braces, parentheses and square brackets, and apart from them
the angle brackets in the header of an interface.
-/

namespace ComponentTsx.Statement

set_option autoImplicit false

/-! ## Counting brackets -/

/-- Whether a token opens a bracket of one of the kinds. -/
def isOpening (brackets : List Bracket) (token : Token) : Bool :=
  brackets.any (token.kind = .opening ·)

/-- Whether a token closes a bracket of one of the kinds. -/
def isClosing (brackets : List Bracket) (token : Token) : Bool :=
  brackets.any (token.kind = .closing ·)

/-- Tokens in which the brackets of some kinds are level. -/
structure IsLevel (brackets : List Bracket) (tokens : List Token) : Prop where
  /-- No bracket is closed that has not been opened. -/
  within : ∀ part, part <+: tokens →
    part.countP (isClosing brackets) ≤ part.countP (isOpening brackets)
  /-- No bracket stays open. -/
  whole : tokens.countP (isClosing brackets) = tokens.countP (isOpening brackets)

theorem isLevel_iff {brackets : List Bracket} {tokens : List Token} :
    ((∀ part ∈ tokens.inits,
        part.countP (isClosing brackets) ≤ part.countP (isOpening brackets)) ∧
      tokens.countP (isClosing brackets) = tokens.countP (isOpening brackets)) ↔
      IsLevel brackets tokens := by
  simp only [List.mem_inits]
  exact ⟨fun ⟨within, whole⟩ => ⟨within, whole⟩, fun level => ⟨level.within, level.whole⟩⟩

instance (brackets : List Bracket) (tokens : List Token) : Decidable (IsLevel brackets tokens) :=
  decidable_of_iff _ isLevel_iff

/-- The number of open brackets of some kinds after a token. -/
def countAfter (brackets : List Bracket) (count : Nat) (token : Token) : Nat :=
  if isOpening brackets token then count + 1
  else if isClosing brackets token then count - 1
  else count

/-- The number of open brackets of some kinds after tokens. -/
def countThrough (brackets : List Bracket) (count : Nat) (tokens : List Token) : Nat :=
  tokens.foldl (countAfter brackets) count

section Level

variable {brackets : List Bracket} {tokens : List Token}

/-- No token both opens and closes a bracket. -/
theorem isClosing_eq_false {token : Token} (opens : isOpening brackets token) :
    isClosing brackets token = false := by
  obtain ⟨bracket, _, kind⟩ := List.any_eq_true.mp opens
  rw [isClosing, of_decide_eq_true kind]
  simp

/--
If, reading on, at most `spare` more brackets are closed than opened, a count that is `spare` or
more says exactly how many are open.
-/
theorem countThrough_add_countP (spare : Nat) (tokens : List Token)
    (within : ∀ part, part <+: tokens →
      part.countP (isClosing brackets) ≤ part.countP (isOpening brackets) + spare) (count : Nat) :
    countThrough brackets (count + spare) tokens + tokens.countP (isClosing brackets) =
      count + spare + tokens.countP (isOpening brackets) := by
  induction tokens generalizing spare with
  | nil => rfl
  | cons token rest ih =>
      have later (part : List Token) (begins : part <+: rest) :=
        within (token :: part) (List.cons_prefix_cons.mpr ⟨rfl, begins⟩)
      rw [countThrough, List.foldl_cons, ← countThrough]
      by_cases opens : isOpening brackets token = true
      · have noClose := isClosing_eq_false opens
        simp only [List.countP_cons, opens, noClose, if_true, Bool.false_eq_true, if_false,
          Nat.add_zero] at later ⊢
        rw [countAfter, if_pos opens, Nat.add_assoc, ih (spare + 1) fun part begins => by
          have := later part begins
          omega]
        omega
      · by_cases closes : isClosing brackets token = true
        · simp only [List.countP_cons, opens, closes, if_true, Bool.false_eq_true, if_false,
            Nat.add_zero] at later ⊢
          have positive := later [] List.nil_prefix
          simp only [List.countP_nil] at positive
          have lower : count + spare - 1 = count + (spare - 1) := by omega
          have rest := ih (spare - 1) fun part begins => by
            have := later part begins
            omega
          rw [countAfter, if_neg opens, if_pos closes, lower]
          omega
        · simp only [List.countP_cons, opens, closes, Bool.false_eq_true, if_false,
            Nat.add_zero] at later ⊢
          rw [countAfter, if_neg opens, if_neg closes]
          exact ih spare later

/-- The count does not fall below where it starts. -/
theorem IsLevel.le_countThrough (level : IsLevel brackets tokens) (count : Nat)
    {part : List Token} (begins : part <+: tokens) : count ≤ countThrough brackets count part := by
  have reached := countThrough_add_countP 0 part
    (fun more among => level.within more (among.trans begins)) count
  have := level.within part begins
  rw [Nat.add_zero] at reached
  omega

/-- The count ends where it starts. -/
theorem IsLevel.countThrough_eq (level : IsLevel brackets tokens) (count : Nat) :
    countThrough brackets count tokens = count := by
  have reached := countThrough_add_countP 0 tokens level.within count
  rw [level.whole, Nat.add_zero] at reached
  exact Nat.add_right_cancel reached

/-! ### Putting tokens together -/

theorem IsLevel.append {more : List Token} (level : IsLevel brackets tokens)
    (later : IsLevel brackets more) : IsLevel brackets (tokens ++ more) where
  within := by
    intro part begins
    rcases List.prefix_or_prefix_of_prefix begins (List.prefix_append tokens more) with
      short | ⟨part, rfl⟩
    · exact level.within part short
    · have reached := later.within part ((List.prefix_append_right_inj tokens).mp begins)
      rw [List.countP_append, List.countP_append, level.whole]
      exact Nat.add_le_add_left reached _
  whole := by rw [List.countP_append, List.countP_append, level.whole, later.whole]

/-- A token that is no bracket of the kinds is level. -/
theorem isLevel_singleton {token : Token} (noOpen : isOpening brackets token = false)
    (noClose : isClosing brackets token = false) : IsLevel brackets [token] where
  within := by
    intro part begins
    have few := begins.sublist.countP_le (p := isClosing brackets)
    rw [List.countP_singleton, noClose, if_neg Bool.false_ne_true] at few
    exact few.trans (Nat.zero_le _)
  whole := by simp [noOpen, noClose]

/-- A bracket of the kinds closed by its own kind, or two tokens that are none, enclose level ones
in level ones. -/
theorem IsLevel.enclose {opening closing : Token} (level : IsLevel brackets tokens)
    (both : isOpening brackets opening = isClosing brackets closing)
    (noClose : isClosing brackets opening = false) (noOpen : isOpening brackets closing = false) :
    IsLevel brackets (opening :: (tokens ++ [closing])) := by
  have whole : (opening :: (tokens ++ [closing])).countP (isClosing brackets) =
      (opening :: (tokens ++ [closing])).countP (isOpening brackets) := by
    simp only [List.countP_cons, List.countP_append, List.countP_nil, both, noClose, noOpen,
      level.whole, Bool.false_eq_true, if_false, Nat.zero_add, Nat.add_zero]
  refine ⟨fun part begins => ?_, whole⟩
  rcases List.prefix_cons_iff.mp begins with rfl | ⟨within, rfl, beginsLater⟩
  · exact Nat.le_refl 0
  · rcases List.prefix_concat_iff.mp beginsLater with rfl | inside
    · exact whole.le
    · have reached := level.within within inside
      rw [List.countP_cons, List.countP_cons, noClose, if_neg Bool.false_ne_true]
      exact reached.trans (Nat.le_add_right _ _)

/-- Leaving out tokens that are no brackets of the kinds changes nothing. -/
theorem IsLevel.filter {keep : Token → Bool} (level : IsLevel brackets tokens)
    (silent : ∀ token, keep token = false →
      isOpening brackets token = false ∧ isClosing brackets token = false) :
    IsLevel brackets (tokens.filter keep) := by
  have same (part : List Token) :
      (part.filter keep).countP (isOpening brackets) = part.countP (isOpening brackets) ∧
        (part.filter keep).countP (isClosing brackets) = part.countP (isClosing brackets) := by
    simp only [List.countP_filter]
    refine ⟨List.countP_congr fun token _ => ?_, List.countP_congr fun token _ => ?_⟩ <;>
      cases kept : keep token <;> simp [silent token, kept]
  refine ⟨fun part begins => ?_, ?_⟩
  · obtain ⟨longer, beginsLonger, rfl⟩ := List.prefix_filter_iff.mp begins
    rw [(same longer).1, (same longer).2]
    exact level.within longer beginsLonger
  · rw [(same tokens).1, (same tokens).2, level.whole]

/-- Where tokens stand plays no part in their brackets. -/
theorem IsLevel.map {move : Token → Token} (level : IsLevel brackets tokens)
    (keeps : Token.KeepsWords move) : IsLevel brackets (tokens.map move) := by
  have same (part : List Token) :
      (part.map move).countP (isOpening brackets) = part.countP (isOpening brackets) ∧
        (part.map move).countP (isClosing brackets) = part.countP (isClosing brackets) := by
    simp only [List.countP_map, Function.comp_def, isOpening, isClosing, keeps.kind]
    exact ⟨rfl, rfl⟩
  refine ⟨fun part begins => ?_, ?_⟩
  · obtain ⟨own, beginsOwn, rfl⟩ := List.prefix_map_iff.mp begins
    rw [(same own).1, (same own).2]
    exact level.within own beginsOwn
  · rw [(same tokens).1, (same tokens).2, level.whole]

end Level

/-! ## The depth -/

/-- The brackets that the splitter counts. -/
def counted : List Bracket := [.brace, .paren, .square]

theorem depthAfter_eq (depth : Nat) (token : Token) :
    depthAfter depth token = countAfter counted depth token := by
  unfold depthAfter countAfter isOpening isClosing counted
  cases token.kind with
  | opening bracket => cases bracket <;> rfl
  | closing bracket => cases bracket <;> rfl
  | _ => rfl

theorem depthThrough_eq (depth : Nat) (tokens : List Token) :
    depthThrough depth tokens = countThrough counted depth tokens := by
  rw [depthThrough, countThrough]
  congr 1
  exact funext fun depth => funext fun token => depthAfter_eq depth token

/-- Tokens with level brackets, within a bracket, are part of the pending statement. -/
theorem IsLevel.splitFrom_append {tokens : List Token} (level : IsLevel counted tokens)
    (noEnd : ∀ token ∈ tokens, token.kind ≠ .endOfFile) (depth : Nat) (pending rest : List Token) :
    splitFrom (depth + 1) pending (tokens ++ rest) =
      splitFrom (depth + 1) (tokens.reverse ++ pending) rest := by
  have inside (part : List Token) (begins : part <+: tokens) :
      0 < depthThrough (depth + 1) part := by
    rw [depthThrough_eq]
    exact Nat.lt_of_lt_of_le (Nat.succ_pos depth) (level.le_countThrough _ begins)
  rw [splitFrom_append_inside noEnd inside, depthThrough_eq, level.countThrough_eq]

/-! ## The angle brackets of a header -/

theorem opensBody_cons (angles : Nat) (token : Token) (rest : List Token) :
    opensBody angles (token :: rest) =
      (decide (token.kind = .opening .brace ∧ angles = 0) ||
        opensBody (countAfter [.angle] angles token) rest) := by
  rw [opensBody]
  unfold countAfter isOpening isClosing
  cases token.kind with
  | opening bracket => cases bracket <;> simp
  | closing bracket => cases bracket <;> simp
  | _ => simp

theorem opensBody_append (angles : Nat) (first second : List Token) :
    opensBody angles (first ++ second) =
      (opensBody angles first || opensBody (countThrough [.angle] angles first) second) := by
  induction first generalizing angles with
  | nil => rfl
  | cons token rest ih =>
      rw [List.cons_append, opensBody_cons, ih, opensBody_cons, Bool.or_assoc]
      rfl

/-- No body opens where an angle bracket stays open. -/
theorem opensBody_eq_false {angles : Nat} {tokens : List Token}
    (within : ∀ part, part <+: tokens → 0 < countThrough [.angle] angles part) :
    opensBody angles tokens = false := by
  induction tokens generalizing angles with
  | nil => rfl
  | cons token rest ih =>
      have open_ : angles ≠ 0 := Nat.ne_of_gt (within [] List.nil_prefix)
      rw [opensBody_cons, ih fun part begins =>
        within (token :: part) (List.cons_prefix_cons.mpr ⟨rfl, begins⟩)]
      simp [open_]

/-- Tokens with level angle brackets open no body inside an angle bracket. -/
theorem IsLevel.opensBody_append {angles : Nat} {tokens : List Token}
    (level : IsLevel [.angle] tokens) (open_ : 0 < angles) (rest : List Token) :
    opensBody angles (tokens ++ rest) = opensBody angles rest := by
  have none : opensBody angles tokens = false := opensBody_eq_false fun part begins =>
    Nat.lt_of_lt_of_le open_ (level.le_countThrough angles begins)
  rw [Statement.opensBody_append, none, level.countThrough_eq, Bool.false_or]

end ComponentTsx.Statement
