import ComponentTsx.Proofs.GenericClause.Nesting
import ComponentTsx.Proofs.Token.Tiling

/-!
# The parameters of a clause, read piece by piece

Of the tokens between the angle brackets of a clause only those outside all
inner brackets matter (`Outline`).  Cut at the commas, they fall into one piece
for each parameter, and the name of a parameter is the last identifier of its
piece before `extends` or `=` (`parameterName?`).  A piece without a name, such
as the one after a last comma, has no parameter.

The reader of names goes through all tokens once and keeps a name and a mark.
While a piece is read, these are the name that the piece has so far and whether
its constraint or default has begun (`paramNames_eq_filterMap`).  So it finds the
parameters of the pieces (`params_extract?`).
-/

namespace ComponentTsx.GenericClause

set_option autoImplicit false

/-! ## Pieces and their names -/

/-- The well-nested tokens `word` and those of them, `outer`, that stand outside all brackets. -/
inductive Outline : List Token → List Token → Prop
  | nil : Outline [] []
  | plain {token : Token} {rest outer : List Token} (isPlain : token.kind.isPlain)
      (outline : Outline rest outer) : Outline (token :: rest) (token :: outer)
  | pair {bracket : Bracket} {opening closing : Token} {inside rest outer : List Token}
      (opens : opening.kind = .opening bracket) (closes : closing.kind = .closing bracket)
      (within : WellNested inside) (outline : Outline rest outer) :
      Outline (opening :: (inside ++ closing :: rest)) outer

/-- Whether the constraint or the default of a parameter begins with the token. -/
def endsHeader (token : Token) : Bool := token.isWord "extends" || decide (token.kind = .equals)

/-- The last identifier of a piece before its constraint and its default. -/
def parameterName? (piece : List Token) : Option Text :=
  (((piece.takeWhile (!endsHeader ·)).filter Token.isIdentifier).getLast?).map (·.text)

/-- The names of the parameters that commas separate. -/
def parameters (outer : List Token) : List Text :=
  (outer.splitOnP (decide <| ·.kind = .comma)).filterMap parameterName?

/-! ## What stands in inner brackets -/

variable {name : Option Text} {named : Bool} {token : Token} {word rest outer inside : List Token}

theorem WellNested.exists_outline (nested : WellNested word) : ∃ outer, Outline word outer := by
  induction nested with
  | nil => exact ⟨[], .nil⟩
  | plain isPlain _ ih =>
      obtain ⟨outer, outline⟩ := ih
      exact ⟨_, .plain isPlain outline⟩
  | pair opens closes within _ _ ih =>
      obtain ⟨outer, outline⟩ := ih
      exact ⟨outer, .pair opens closes within outline⟩

theorem Outline.isPlain (outline : Outline word outer) : ∀ token ∈ outer, token.kind.isPlain := by
  induction outline with
  | nil => exact fun token none => nomatch none
  | plain isPlain _ ih => exact List.forall_mem_cons.mpr ⟨isPlain, ih⟩
  | pair _ _ _ _ ih => exact ih

theorem Outline.sublist (outline : Outline word outer) : outer.Sublist word := by
  induction outline with
  | nil => exact .slnil
  | plain _ _ ih => exact ih.cons_cons _
  | pair _ _ _ _ ih =>
      exact (ih.trans (List.sublist_cons_self ..)).trans (List.sublist_append_right ..) |>.cons _

theorem paramNames_opening {bracket : Bracket} (opens : token.kind = .opening bracket)
    (depth : Nat) : paramNames depth name named (token :: rest) =
      paramNames (depth + 1) name named rest := by
  rw [paramNames, opens]

theorem paramNames_closing {bracket : Bracket} (closes : token.kind = .closing bracket)
    (depth : Nat) : paramNames depth name named (token :: rest) =
      paramNames (depth - 1) name named rest := by
  rw [paramNames, closes]

/-- In an inner bracket no token changes the names. -/
theorem paramNames_inner (isPlain : token.kind.isPlain) (depth : Nat) :
    paramNames (depth + 1) name named (token :: rest) = paramNames (depth + 1) name named rest := by
  rw [paramNames]
  cases kind : token.kind with
  | opening bracket | closing bracket =>
      rw [kind] at isPlain
      cases isPlain
  | _ => simp

/-- Well-nested tokens in an inner bracket are passed over. -/
theorem paramNames_wellNested_append (nested : WellNested word) (depth : Nat) (rest : List Token) :
    paramNames (depth + 1) name named (word ++ rest) = paramNames (depth + 1) name named rest := by
  induction nested generalizing depth rest with
  | nil => rfl
  | plain isPlain _ ih => rw [List.cons_append, paramNames_inner isPlain, ih]
  | pair opens closes _ _ ihWithin ih =>
      rw [List.cons_append, List.append_assoc, List.cons_append, paramNames_opening opens, ihWithin,
        paramNames_closing closes, Nat.add_sub_cancel, ih]

/-- Well-nested tokens have the names that those outside all brackets have. -/
theorem paramNames_outline (outline : Outline word outer) :
    paramNames 0 name named word = paramNames 0 name named outer := by
  induction outline generalizing name named with
  | nil => rfl
  | @plain token rest outer isPlain _ ih =>
      rw [paramNames, paramNames]
      cases kind : token.kind with
      | opening bracket | closing bracket =>
          rw [kind] at isPlain
          cases isPlain
      | _ => simp only [ih]
  | pair opens closes within _ ih =>
      rw [paramNames_opening opens, paramNames_wellNested_append within, paramNames_closing closes,
        ← ih]

/-! ## One token of a piece -/

section Piece

variable {soFar : List Token}

/-- Once a constraint or a default has begun, the name stays. -/
theorem parameterName?_append_of_ended (ended : soFar.any endsHeader = true)
    (more : List Token) : parameterName? (soFar ++ more) = parameterName? soFar := by
  have stops : (soFar.takeWhile (!endsHeader ·)).length ≠ soFar.length := by
    intro whole
    have all := List.takeWhile_eq_self_iff.mp
      ((List.takeWhile_prefix _).eq_of_length whole)
    obtain ⟨token, member, ends⟩ := List.any_eq_true.mp ended
    simpa [ends] using all token member
  rw [parameterName?, List.takeWhile_append, if_neg stops, parameterName?]

/-- Before that, an identifier is the name until another one follows. -/
theorem parameterName?_concat (open_ : soFar.any endsHeader = false) :
    parameterName? (soFar ++ [token]) =
      if token.isIdentifier ∧ endsHeader token = false then some token.text
      else parameterName? soFar := by
  have header : ∀ token ∈ soFar, (!endsHeader token) = true := by
    intro token member
    simpa using List.any_eq_false.mp open_ token member
  rw [parameterName?, List.takeWhile_append_of_pos header, parameterName?,
    List.takeWhile_eq_self_iff.mpr header]
  cases ends : endsHeader token with
  | true => simp [ends]
  | false =>
      cases isIdentifier : token.isIdentifier with
      | true => simp [ends, isIdentifier]
      | false => simp [ends, isIdentifier]

/-- A token of a piece takes what is kept from the piece before it to the piece with it. -/
theorem paramNames_cons (isPlain : token.kind.isPlain) (noComma : token.kind ≠ .comma) :
    paramNames 0 (parameterName? soFar) (soFar.any endsHeader) (token :: rest) =
      paramNames 0 (parameterName? (soFar ++ [token])) ((soFar ++ [token]).any endsHeader)
        rest := by
  have marked : (soFar ++ [token]).any endsHeader =
      (soFar.any endsHeader || endsHeader token) := by simp
  rw [marked, paramNames]
  cases ended : soFar.any endsHeader with
  | true =>
      rw [parameterName?_append_of_ended ended, Bool.true_or]
      cases kind : token.kind with
      | opening bracket | closing bracket | comma => simp_all [TokenKind.isPlain]
      | _ => simp
  | false =>
      rw [parameterName?_concat ended, Bool.false_or]
      cases kind : token.kind with
      | opening bracket | closing bracket | comma => simp_all [TokenKind.isPlain]
      | identifier =>
          cases isWord : token.isWord "extends" <;>
            simp [endsHeader, Token.isIdentifier, kind, isWord]
      | _ => simp [endsHeader, Token.isIdentifier, Token.isWord, kind]

theorem modifyHead_nil_append (pieces : List (List Token)) :
    pieces.modifyHead ([] ++ ·) = pieces := congrFun List.modifyHead_id pieces

/--
The reader finds the names of the pieces when it has read `soFar` of the first one: what it keeps is
the name that `soFar` has and whether the constraint or the default has begun there.
-/
theorem paramNames_eq_filterMap (plain : ∀ token ∈ outer, token.kind.isPlain) :
    paramNames 0 (parameterName? soFar) (soFar.any endsHeader) outer =
      ((outer.splitOnP (decide <| ·.kind = .comma)).modifyHead (soFar ++ ·)).filterMap
        parameterName? := by
  have filterMap_name (piece : List Token) (pieces : List (List Token)) :
      (piece :: pieces).filterMap parameterName? =
        (parameterName? piece).toList ++ pieces.filterMap parameterName? := by
    cases found : parameterName? piece <;> simp [found]
  induction outer generalizing soFar with
  | nil =>
      rw [paramNames, List.splitOnP_nil, List.modifyHead_cons, List.append_nil, filterMap_name,
        List.filterMap_nil, List.append_nil]
  | cons token rest ih =>
      obtain ⟨isPlain, later⟩ := List.forall_mem_cons.mp plain
      rw [List.splitOnP_cons_eq_if_modifyHead]
      by_cases isComma : token.kind = .comma
      · -- The next piece begins, with no name and no mark.
        have next := @ih [] later
        rw [modifyHead_nil_append] at next
        rw [if_pos (by simpa using isComma), List.modifyHead_cons, List.append_nil, filterMap_name,
          ← next, paramNames, isComma]
        rfl
      · rw [if_neg (by simpa using isComma), List.modifyHead_modifyHead,
          paramNames_cons isPlain isComma, ih later]
        congr 2
        exact funext fun piece => (List.append_cons soFar token piece).symm

end Piece

/-! ## The parameters of a clause -/

/-- Without brackets, the reader finds the names of the pieces. -/
theorem paramNames_eq_parameters (plain : ∀ token ∈ outer, token.kind.isPlain) :
    paramNames 0 none false outer = parameters outer := by
  have pieces := @paramNames_eq_filterMap outer [] plain
  rw [modifyHead_nil_append] at pieces
  exact pieces

/-- Without brackets, only identifiers, commas and equals signs have a part in the names. -/
theorem parameters_filter (plain : ∀ token ∈ outer, token.kind.isPlain) :
    parameters (outer.filter (!·.kind.isSilent)) = parameters outer := by
  have plainStill : ∀ token ∈ outer.filter (!·.kind.isSilent), token.kind.isPlain :=
    fun token member => plain token (List.mem_filter.mp member).1
  rw [← paramNames_eq_parameters plainStill, ← paramNames_eq_parameters plain]
  exact paramNames_filter (fun _ dropped => (Bool.not_eq_false' _).mp dropped) ..

/--
**The parameters of a clause are its pieces, reduced to their names.**  Of the tokens between the
angle brackets, comments and line breaks aside, take those outside all inner brackets and cut them
at the commas: the clause has as parameters the last identifier of each piece before `extends` or
`=`, in order, and none for a piece without one.  Of the tokens taken, only identifiers, commas and
equals signs have a part in this.
-/
theorem params_extract? {source : Text} {tokens : List Token} {clause : GenericClause}
    (slice : tokens <:+: tokenize source) (reads : extract? source tokens = some clause) :
    (∃ word opening inside closing outer, word <+: significant tokens ∧
      IsAngleGroup word opening inside closing ∧ Outline inside outer) ∧
    ∀ word opening inside closing outer, word <+: significant tokens →
      IsAngleGroup word opening inside closing → Outline inside outer →
        clause.params = parameters outer ∧
        clause.params = parameters (outer.filter (!·.kind.isSilent)) ∧
        ∀ token ∈ outer, source.slice? token.start token.stop = some token.text := by
  obtain ⟨found, isFound, _⟩ := Option.bind_eq_some_iff.mp reads
  constructor
  · have among : tokens? (significant tokens) = some (significant found) := by
      rw [tokens?_significant, isFound, Option.map_some]
    obtain ⟨begins, opening, inside, closing, group⟩ := tokens?_significant_eq_some_iff.mp among
    obtain ⟨outer, outline⟩ := group.nested.exists_outline
    exact ⟨_, opening, inside, closing, outer, begins, group, outline⟩
  · intro word opening inside closing outer begins group outline
    obtain ⟨raw, _, again⟩ := extract?_of_isAngleGroup slice begins group
    cases reads.symm.trans again
    have params : paramNames 0 none false inside = parameters outer :=
      (paramNames_outline outline).trans (paramNames_eq_parameters outline.isPlain)
    refine ⟨params, params.trans (parameters_filter outline.isPlain).symm, fun token member => ?_⟩
    have inWord : token ∈ word := by
      rw [group.whole]
      exact List.mem_cons_of_mem _ (List.mem_append_left _ (outline.sublist.subset member))
    have inTokens := (List.mem_filter.mp (begins.subset inWord)).1
    obtain ⟨before, after, rfl, place⟩ :=
      (tiles_tokensFrom 0 true source).exists_text_eq token (slice.subset inTokens)
    rw [Token.stop, place, Nat.zero_add]
    exact Text.slice?_append before token.text after

/-- Modifiers, commas in brackets, a default with an arrow, a string and a trailing comma. -/
theorem params_extract?_modifiers :
    let source : Text :=
      "<const T extends X<A, B>[] = (a, b) => c, 'd', in out U /* e, */ = \x7b f, g \x7d,>".toList
    let clause : GenericClause := ⟨source, ["T".toList, "U".toList]⟩
    (tokenize source <:+: tokenize source ∧ extract? source (tokenize source) = some clause) ∧
    (∃ word opening inside closing outer, word <+: significant (tokenize source) ∧
      IsAngleGroup word opening inside closing ∧ Outline inside outer) ∧
    ∀ word opening inside closing outer, word <+: significant (tokenize source) →
      IsAngleGroup word opening inside closing → Outline inside outer →
        clause.params = parameters outer ∧
        clause.params = parameters (outer.filter (!·.kind.isSilent)) ∧
        ∀ token ∈ outer, source.slice? token.start token.stop = some token.text := by
  intro source clause
  have slice : tokenize source <:+: tokenize source := List.infix_rfl
  have reads : extract? source (tokenize source) = some clause := by decide +kernel
  exact ⟨⟨slice, reads⟩, params_extract? slice reads⟩

end ComponentTsx.GenericClause
