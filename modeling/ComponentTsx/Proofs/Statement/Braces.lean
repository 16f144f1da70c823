import ComponentTsx.Proofs.Declaration.ClauseExtent
import ComponentTsx.Proofs.Statement.Level

/-!
# Statements do not look into braces

Two texts that differ only in what stands between two braces are split in step.
Up to the braces the splitter looks no further than to the first of them
(`exists_splitFrom_before`), and between them no statement ends.  Behind them it
still looks back, at line breaks: to the last token, which is the same, and
through the header of an interface for a brace that opens its body.  The latter
meets what stands in the braces, but finds nothing there as long as the angle
brackets in it are level (`awaitsInterfaceBody_braces`).  So from there on both
runs end statements at the same tokens (`exists_splitFrom_eq_cons`).
-/

namespace ComponentTsx.Statement

set_option autoImplicit false

/-! ## Places of statements -/

/--
Where a statement stands among tokens, `count` in number: the place of its first token and the place
behind its last one.
-/
def bounds (count : Nat) (statement : Statement) : Nat × Nat :=
  (count - statement.following.length - statement.tokens.length,
    count - statement.following.length)

/-- Where the statements of tokens stand. -/
def positions (tokens : List Token) : List (Nat × Nat) := (split tokens).map (bounds tokens.length)

/-- Whether a statement holds the token at a place. -/
def Holds (count place : Nat) (statement : Statement) : Prop :=
  (statement.bounds count).1 ≤ place ∧ place < (statement.bounds count).2

/-- The tokens of a statement before a place. -/
def upTo (count place : Nat) (statement : Statement) : List Token :=
  statement.tokens.take (place - (statement.bounds count).1)

/-- Whether a place is in the angle brackets of an interface header. -/
def InHeaderAngles (tokens : List Token) (place : Nat) : Prop :=
  ∃ statement ∈ split tokens, statement.Holds tokens.length place ∧
    awaitsInterfaceBody (statement.upTo tokens.length place) ∧
    0 < countThrough [.angle] 0 (statement.upTo tokens.length place)

instance (count place : Nat) (statement : Statement) : Decidable (statement.Holds count place) :=
  inferInstanceAs (Decidable (_ ∧ _))

instance (tokens : List Token) (place : Nat) : Decidable (InHeaderAngles tokens place) :=
  inferInstanceAs (Decidable (∃ statement ∈ split tokens, _))

/-- A place among tokens, moved if it is behind a given one. -/
def movedBehind (place distance : Nat) (here : Nat) : Nat :=
  if here ≤ place then here else here + distance

/-! ## Up to a token -/

/-- Before a token that is no line break the splitter looks no further than to that token. -/
theorem exists_splitFrom_before {stop : Token} (noBreak : isLineBreak stop = false) (depth : Nat)
    (pending : List Token) {before : List Token}
    (noEnd : ∀ token ∈ before, token.kind ≠ .endOfFile) :
    ∃ (earlier : List Statement) (reached : Nat) (header : List Token),
      (∃ prior, pending.reverse ++ before = prior ++ header.reverse) ∧ ∀ rest,
        splitFrom depth pending (before ++ stop :: rest) =
          earlier.map (followedBy (stop :: rest)) ++ splitFrom reached header (stop :: rest) := by
  induction before generalizing depth pending with
  | nil => exact ⟨[], depth, pending, ⟨[], by simp⟩, fun rest => rfl⟩
  | cons token before ih =>
      obtain ⟨notEnd, noEnd⟩ := List.forall_mem_cons.mp noEnd
      have step (rest : List Token) := continuesAcross_append noBreak pending before rest
      have stepEnd (rest : List Token) :=
        endsWith_append (depthAfter depth token) token stop before rest
      by_cases breaks : isLineBreak token && depth = 0 &&
          !continuesAcross pending (before ++ [stop])
      · obtain ⟨earlier, reached, header, ⟨prior, whole⟩, later⟩ := ih 0 [] noEnd
        refine ⟨⟨pending.reverse, token :: before⟩ :: earlier, reached, header,
          ⟨pending.reverse ++ token :: prior, ?_⟩, fun rest => ?_⟩
        · rw [List.append_assoc, List.cons_append, ← whole]
          rfl
        · rw [List.cons_append, splitFrom, if_neg notEnd, step, if_pos breaks, later]
          rfl
      · by_cases ends : endsWith (depthAfter depth token) token (before ++ [stop])
        · obtain ⟨earlier, reached, header, ⟨prior, whole⟩, later⟩ := ih 0 [] noEnd
          refine ⟨⟨(token :: pending).reverse, before⟩ :: earlier, reached, header,
            ⟨pending.reverse ++ token :: prior, ?_⟩, fun rest => ?_⟩
          · rw [List.append_assoc, List.cons_append, ← whole]
            rfl
          · rw [List.cons_append, splitFrom, if_neg notEnd, step, if_neg breaks, stepEnd,
              if_pos ends, later]
            rfl
        · obtain ⟨earlier, reached, header, ⟨prior, whole⟩, later⟩ :=
            ih (depthAfter depth token) (token :: pending) noEnd
          refine ⟨earlier, reached, header, ⟨prior, ?_⟩, fun rest => ?_⟩
          · rw [← whole, List.reverse_cons, List.append_assoc]
            rfl
          · rw [List.cons_append, splitFrom, if_neg notEnd, step, if_neg breaks, stepEnd,
              if_neg ends, later]

/-! ## Behind a token -/

/--
The statement that pending tokens begin goes on to the same token, whatever these are, as long as
they go on alike at line breaks; and the statements after it are the same.
-/
theorem exists_splitFrom_eq_cons {eof : Token} (isEnd : eof.kind = .endOfFile) (depth : Nat)
    (pending more tokens : List Token) :
    ∃ body following later, more.reverse ++ (tokens ++ [eof]) = body ++ following ∧
      (∀ statement ∈ later, statement.tokens ++ statement.following <:+ following) ∧
      ∀ other, (∀ more rest,
          continuesAcross (more ++ other) rest = continuesAcross (more ++ pending) rest) →
        splitFrom depth (more ++ other) (tokens ++ [eof]) =
          ⟨other.reverse ++ body, following⟩ :: later := by
  induction tokens generalizing depth more with
  | nil =>
      refine ⟨more.reverse, [eof], [], rfl, by simp, fun other _ => ?_⟩
      simp [splitFrom, isEnd]
  | cons token tokens ih =>
      have after (statement : Statement) (isLater : statement ∈ splitFrom 0 [] (tokens ++ [eof])) :
          statement.tokens ++ statement.following <:+ tokens ++ [eof] := by
        obtain ⟨prior, whole⟩ := exists_append_of_mem_splitFrom isLater
        exact ⟨prior, whole.symm⟩
      by_cases isLast : token.kind = .endOfFile
      · refine ⟨more.reverse, token :: (tokens ++ [eof]), [], rfl, by simp, fun other _ => ?_⟩
        simp [splitFrom, isLast]
      by_cases breaks : isLineBreak token && depth = 0 &&
          !continuesAcross (more ++ pending) (tokens ++ [eof])
      · refine ⟨more.reverse, token :: (tokens ++ [eof]), splitFrom 0 [] (tokens ++ [eof]), rfl,
          fun statement isLater => (after statement isLater).trans (List.suffix_cons ..),
          fun other alike => ?_⟩
        rw [List.cons_append, splitFrom, if_neg isLast, alike, if_pos breaks, List.reverse_append]
      by_cases ends : endsWith (depthAfter depth token) token (tokens ++ [eof])
      · refine ⟨more.reverse ++ [token], tokens ++ [eof], splitFrom 0 [] (tokens ++ [eof]),
          by simp, after, fun other alike => ?_⟩
        rw [List.cons_append, splitFrom, if_neg isLast, alike, if_neg breaks, if_pos ends]
        simp
      · obtain ⟨body, following, later, whole, inside, same⟩ :=
          ih (depthAfter depth token) (token :: more)
        refine ⟨body, following, later, ?_, inside, fun other alike => ?_⟩
        · rw [← whole, List.reverse_cons, List.append_assoc]
          rfl
        · rw [List.cons_append, splitFrom, if_neg isLast, alike, if_neg breaks, if_neg ends]
          exact same other alike

/-! ## Across braces -/

section Braces

variable {opening closing : Token} (opens : opening.kind = .opening .brace)
  (closes : closing.kind = .closing .brace)

include opens

theorem isLineBreak_opening : isLineBreak opening = false := by
  rw [isLineBreak, opens]

/-- What a header begins with, behind its modifiers, does not depend on what an opening brace
begins. -/
theorem head?_dropWhile_opening (header rest : List Token) :
    ((significant (header ++ opening :: rest)).dropWhile (·.isOneOf modifiers)).head? =
      (((significant header).dropWhile (·.isOneOf modifiers)).head?).or (some opening) := by
  have noModifier : opening.isOneOf modifiers = false := by
    simp [Token.isOneOf, Token.isWord, opens]
  rw [significant_append, significant_cons (by simp [isLineBreak_opening opens]),
    List.dropWhile_append]
  split
  · rename_i none
    rw [List.isEmpty_iff.mp none, List.dropWhile_cons_of_neg (by simp [noModifier])]
    rfl
  · rename_i some
    rw [List.head?_append]
    cases found : ((significant header).dropWhile (·.isOneOf modifiers)).head? with
    | none => simp_all
    | some keyword => rfl

theorem opensBody_opening (angles : Nat) (rest : List Token) :
    opensBody angles (opening :: rest) = (decide (angles = 0) || opensBody angles rest) := by
  rw [opensBody_cons]
  simp [countAfter, isOpening, isClosing, opens]

/--
Whether a header still waits for its body does not depend on what stands in braces, if the angle
brackets in them are level wherever the braces stand in an angle bracket of a header.
-/
theorem awaitsInterfaceBody_braces {header inside : List Token}
    (angles : awaitsInterfaceBody header → 0 < countThrough [.angle] 0 header →
      IsLevel [.angle] inside) (rest : List Token) :
    awaitsInterfaceBody (header ++ opening :: (inside ++ rest)) =
      awaitsInterfaceBody (header ++ opening :: rest) := by
  simp only [awaitsInterfaceBody, head?_dropWhile_opening opens] at angles ⊢
  by_cases isInterface : (((significant header).dropWhile (·.isOneOf modifiers)).head?).any
      (·.isWord "interface") = true
  · congr 2
    rw [opensBody_append, opensBody_append, opensBody_opening opens, opensBody_opening opens]
    cases opened : opensBody 0 header with
    | true => rfl
    | false =>
        by_cases outside : countThrough [.angle] 0 header = 0
        · simp [outside]
        · have open_ : 0 < countThrough [.angle] 0 header := Nat.pos_of_ne_zero outside
          have level := angles (by simp [isInterface, opened]) open_
          rw [level.opensBody_append open_]
  · have noInterface : opening.isWord "interface" = false := by simp [Token.isWord, opens]
    cases found : ((significant header).dropWhile (·.isOneOf modifiers)).head? with
    | none => simp [noInterface]
    | some keyword => simp_all

include closes

/-- What stands in braces does not change whether the statement goes on after a line break. -/
theorem continuesAcross_braces {pending inside : List Token}
    (angles : awaitsInterfaceBody pending.reverse → 0 < countThrough [.angle] 0 pending.reverse →
      IsLevel [.angle] inside) (more rest : List Token) :
    continuesAcross (more ++ closing :: (inside.reverse ++ opening :: pending)) rest =
      continuesAcross (more ++ closing :: opening :: pending) rest := by
  have noBreak : isLineBreak closing = false := by rw [isLineBreak, closes]
  have previous (others : List Token) : (more ++ closing :: others).find? (!isLineBreak ·) =
      (more ++ [closing]).find? (!isLineBreak ·) := by
    simp [List.find?_append, noBreak]
  have header := awaitsInterfaceBody_braces opens angles (closing :: more.reverse)
  simp only [continuesAcross, previous (inside.reverse ++ opening :: pending),
    previous (opening :: pending)]
  simp only [List.reverse_append, List.reverse_cons, List.reverse_reverse, List.append_assoc,
    List.cons_append, List.nil_append, header]

omit closes in
theorem splitFrom_opening (depth : Nat) (pending rest : List Token) :
    splitFrom depth pending (opening :: rest) =
      splitFrom (depth + 1) (opening :: pending) rest := by
  have deeper : depthAfter depth opening = depth + 1 := by rw [depthAfter, opens]
  have uncut : cuts depth pending opening rest = false := by
    refine Bool.eq_false_iff.mpr fun ends => ?_
    exact Nat.succ_ne_zero depth (deeper.symm.trans (depthAfter_of_cuts ends))
  rw [splitFrom_cons_of_uncut (by simp [opens]) uncut, deeper]

omit opens in
theorem splitFrom_closing (depth : Nat) (pending rest : List Token) :
    splitFrom (depth + 1) pending (closing :: rest) =
      if endsWith depth closing rest then
        ⟨pending.reverse ++ [closing], rest⟩ :: splitFrom 0 [] rest
      else splitFrom depth (closing :: pending) rest := by
  have back : depthAfter (depth + 1) closing = depth := by rw [depthAfter, closes]; rfl
  have noBreak : isLineBreak closing = false := by rw [isLineBreak, closes]
  rw [splitFrom, if_neg (by simp [closes]), noBreak, back]
  simp

variable {before inside after : List Token} {eof : Token}
  (isEnd : eof.kind = .endOfFile) (noEnd : ∀ token ∈ before ++ inside, token.kind ≠ .endOfFile)
  (level : IsLevel counted inside)

include isEnd noEnd level

/--
The statements of tokens with braces in them: those before, the one that the braces stand in, and
those after it.  Only the one with the braces has in it what stands between them.
-/
theorem exists_split_braces
    (angles : InHeaderAngles (before ++ opening :: closing :: (after ++ [eof])) before.length →
      IsLevel [.angle] inside) :
    ∃ (earlier : List Statement) (header body following : List Token) (later : List Statement),
      (∃ prior, before = prior ++ header) ∧ after ++ [eof] = body ++ following ∧
      (∀ statement ∈ later, statement.tokens ++ statement.following <:+ following) ∧
      split (before ++ opening :: closing :: (after ++ [eof])) =
        earlier.map (followedBy (opening :: closing :: (after ++ [eof]))) ++
          ⟨header ++ opening :: closing :: body, following⟩ :: later ∧
      split (before ++ opening :: (inside ++ closing :: (after ++ [eof]))) =
        earlier.map (followedBy (opening :: (inside ++ closing :: (after ++ [eof])))) ++
          ⟨header ++ opening :: (inside ++ closing :: body), following⟩ :: later := by
  obtain ⟨noEndBefore, noEndInside⟩ := List.forall_mem_append.mp noEnd
  obtain ⟨earlier, depth, pending, ⟨prior, whole⟩, upToHere⟩ :=
    exists_splitFrom_before (isLineBreak_opening opens) 0 [] noEndBefore
  rw [List.reverse_nil, List.nil_append] at whole
  -- Both runs come to the closing brace, each with its own pending tokens.
  have bare := upToHere (closing :: (after ++ [eof]))
  have filled := upToHere (inside ++ closing :: (after ++ [eof]))
  rw [splitFrom_opening opens, splitFrom_closing closes] at bare
  rw [splitFrom_opening opens, level.splitFrom_append noEndInside,
    splitFrom_closing closes] at filled
  rw [← split] at bare filled
  by_cases ends : endsWith depth closing (after ++ [eof]) = true
  · rw [if_pos ends] at bare filled
    refine ⟨earlier, pending.reverse, [], after ++ [eof], splitFrom 0 [] (after ++ [eof]),
      ⟨prior, whole⟩, rfl, fun statement isLater => ?_, ?_, ?_⟩
    · obtain ⟨skipped, later⟩ := exists_append_of_mem_splitFrom isLater
      exact ⟨skipped, later.symm⟩
    · rw [bare]
      simp
    · rw [filled]
      simp
  · rw [if_neg ends] at bare filled
    obtain ⟨body, following, later, rest, inOrder, goesOn⟩ :=
      exists_splitFrom_eq_cons isEnd depth (closing :: opening :: pending) [] after
    have bareEnd := goesOn (closing :: opening :: pending) fun _ _ => rfl
    rw [List.nil_append] at bareEnd
    rw [bareEnd] at bare
    -- The statement that the braces stand in tells whether they stand in its header.
    have inHeader : awaitsInterfaceBody pending.reverse →
        0 < countThrough [.angle] 0 pending.reverse → IsLevel [.angle] inside := by
      have count := congrArg List.length rest
      have places := congrArg List.length whole
      simp only [List.length_append, List.length_reverse, List.length_cons, List.length_nil]
        at count places
      have member : ⟨(closing :: opening :: pending).reverse ++ body, following⟩ ∈
          split (before ++ opening :: closing :: (after ++ [eof])) := by
        rw [bare]
        simp
      have header : upTo (before ++ opening :: closing :: (after ++ [eof])).length before.length
          ⟨(closing :: opening :: pending).reverse ++ body, following⟩ = pending.reverse := by
        have length : before.length - (bounds
            (before ++ opening :: closing :: (after ++ [eof])).length
            ⟨(closing :: opening :: pending).reverse ++ body, following⟩).1 =
            pending.reverse.length := by
          simp only [bounds, List.length_append, List.length_reverse, List.length_cons,
            List.length_nil]
          omega
        rw [upTo, length, List.reverse_cons, List.reverse_cons, List.append_assoc,
          List.append_assoc, List.take_left]
      refine fun awaits open_ => angles ⟨_, member, ?_, header.symm ▸ awaits, header.symm ▸ open_⟩
      simp only [Holds, bounds, List.length_append, List.length_reverse, List.length_cons,
        List.length_nil]
      omega
    have filledEnd := goesOn (closing :: (inside.reverse ++ opening :: pending)) fun more rest =>
      continuesAcross_braces opens closes inHeader more rest
    rw [List.nil_append] at filledEnd
    rw [filledEnd] at filled
    refine ⟨earlier, pending.reverse, body, following, later, ⟨prior, whole⟩, rest, inOrder, ?_, ?_⟩
    · rw [bare]
      simp
    · rw [filled]
      simp

/--
What stands in braces moves the statements behind the opening brace and changes nothing else; no
statement begins or ends in it.
-/
theorem positions_braces
    (angles : InHeaderAngles (before ++ opening :: closing :: (after ++ [eof])) before.length →
      IsLevel [.angle] inside) :
    let move := movedBehind before.length inside.length
    positions (before ++ opening :: (inside ++ closing :: (after ++ [eof]))) =
        (positions (before ++ opening :: closing :: (after ++ [eof]))).map (Prod.map move move) ∧
      ∀ place ∈ positions (before ++ opening :: (inside ++ closing :: (after ++ [eof]))),
        ∀ side ∈ [place.1, place.2],
          side ≤ before.length ∨ before.length + inside.length + 2 ≤ side := by
  intro move
  obtain ⟨earlier, header, body, following, later, ⟨prior, whole⟩, rest, inOrder, bare, filled⟩ :=
    exists_split_braces opens closes isEnd noEnd level angles
  have count := congrArg List.length rest
  have places := congrArg List.length whole
  simp only [List.length_append, List.length_cons, List.length_nil] at count places
  have inPlace {here : Nat} (inFront : here ≤ before.length) : move here = here := if_pos inFront
  have moved {here : Nat} (behind : before.length < here) : move here = here + inside.length :=
    if_neg (Nat.not_le_of_lt behind)
  simp only [positions, bare, filled, List.map_append, List.map_cons, List.map_map]
  refine ⟨congrArg₂ _ ?_ (congrArg₂ _ ?_ ?_), ?_⟩
  · refine List.map_congr_left fun statement _ => ?_
    simp only [Function.comp_apply, bounds, followedBy, Prod.map, List.length_append,
      List.length_cons]
    rw [inPlace (by omega), inPlace (by omega)]
    exact Prod.ext (by simp only; omega) (by simp only; omega)
  · simp only [bounds, Prod.map, List.length_append, List.length_cons, List.length_nil]
    rw [inPlace (by omega), moved (by omega)]
    exact Prod.ext (by simp only; omega) (by simp only; omega)
  · refine List.map_congr_left fun statement isLater => ?_
    have among := (inOrder statement isLater).length_le
    simp only [Function.comp_apply, bounds, Prod.map, List.length_append, List.length_cons,
      List.length_nil] at among ⊢
    rw [moved (by omega), moved (by omega)]
    exact Prod.ext (by simp only; omega) (by simp only; omega)
  · simp only [List.forall_mem_append, List.forall_mem_cons, List.forall_mem_map,
      Function.comp_apply, bounds, followedBy, List.length_append, List.length_cons,
      List.length_nil, List.not_mem_nil, false_implies, implies_true, and_true]
    refine ⟨fun statement _ => ⟨by omega, by omega⟩, ⟨by omega, by omega⟩,
      fun statement isLater => ?_⟩
    have among := (inOrder statement isLater).length_le
    rw [List.length_append] at among
    exact ⟨by omega, by omega⟩

end Braces

end ComponentTsx.Statement
