import ComponentTsx.Proofs.Declaration.Relocation
import ComponentTsx.Proofs.GenericClause.Nesting
import ComponentTsx.Proofs.Statement.Level

/-!
# Lists of types

Type parameters and type arguments are written between angle brackets.  Read on
its own, such a list has well-nested tokens between the brackets (`TypeList`).
It is read in the same way wherever it stands (`tokensFrom_append`): its last
bracket ends the token before it, and each slash in it is a division because of
what stands before it, so that no regular expression can begin there whatever
follows the list.

Behind a name the list is the clause (`extract?_tokensAt`), and the splitter goes
on to what follows it (`splitFrom_tokensAt`).
-/

namespace ComponentTsx

set_option autoImplicit false

namespace GenericClause

section Nested

variable {tokens : List Token} (nested : WellNested tokens)

include nested

theorem WellNested.map {move : Token → Token} (keeps : Token.KeepsWords move) :
    WellNested (tokens.map move) := by
  induction nested with
  | nil => exact .nil
  | plain isPlain _ ih => exact .plain (by rwa [keeps.kind]) ih
  | @pair bracket opening closing inside rest opens closes _ _ ihWithin ih =>
      rw [List.map_cons, List.map_append, List.map_cons]
      exact .pair ((keeps.kind opening).trans opens) ((keeps.kind closing).trans closes) ihWithin ih

theorem WellNested.filter {keep : Token → Bool}
    (plain : ∀ token, keep token = false → token.kind.isPlain) :
    WellNested (tokens.filter keep) := by
  have kept {token : Token} (noPlain : token.kind.isPlain = false) : keep token = true := by
    by_contra dropped
    have isPlain := plain token ((Bool.not_eq_true _).mp dropped)
    exact Bool.false_ne_true (noPlain.symm.trans isPlain)
  induction nested with
  | nil => exact .nil
  | @plain token rest isPlain _ ih =>
      rw [List.filter_cons]
      split
      · exact .plain isPlain ih
      · exact ih
  | @pair bracket opening closing inside rest opens closes _ _ ihWithin ih =>
      rw [List.filter_cons_of_pos (kept (by rw [opens]; rfl)), List.filter_append,
        List.filter_cons_of_pos (kept (by rw [closes]; rfl))]
      exact .pair opens closes ihWithin ih

theorem WellNested.ne_endOfFile : ∀ token ∈ tokens, token.kind ≠ .endOfFile := by
  induction nested with
  | nil => exact fun _ none => nomatch none
  | plain isPlain _ ih =>
      refine List.forall_mem_cons.mpr ⟨fun isEnd => ?_, ih⟩
      rw [isEnd] at isPlain
      cases isPlain
  | pair opens closes _ _ ihWithin ih =>
      simp only [List.forall_mem_cons, List.forall_mem_append, opens, closes]
      exact ⟨TokenKind.noConfusion, ihWithin, TokenKind.noConfusion, ih⟩

/-- Well-nested brackets of any kinds are level. -/
theorem WellNested.isLevel (brackets : List Bracket) : Statement.IsLevel brackets tokens := by
  induction nested with
  | nil =>
      refine ⟨fun part begins => ?_, rfl⟩
      rw [List.prefix_nil.mp begins]
      exact Nat.le_refl 0
  | @plain token rest isPlain _ ih =>
      refine (Statement.isLevel_singleton ?_ ?_).append ih <;>
        cases kind : token.kind <;>
          simp_all [Statement.isOpening, Statement.isClosing, TokenKind.isPlain]
  | @pair bracket opening closing inside rest opens closes _ _ ihWithin ih =>
      rw [List.append_cons, ← List.cons_append]
      refine (ihWithin.enclose ?_ ?_ ?_).append ih <;>
        simp [Statement.isOpening, Statement.isClosing, opens, closes]

end Nested

end GenericClause

/-- A list of type parameters or type arguments on one line. -/
structure TypeList where
  /-- The text between the angle brackets. -/
  middle : Text
  /-- The tokens between the angle brackets. -/
  inside : List Token
  reads : tokenize ('<' :: (middle ++ ['>'])) =
    ⟨.opening .angle, 0, ['<']⟩ :: (inside ++
      [⟨.closing .angle, 1 + middle.byteLength, ['>']⟩, ⟨.endOfFile, 2 + middle.byteLength, []⟩])
  nested : GenericClause.WellNested inside
  oneLine : ∀ token ∈ inside, ¬ Statement.isLineBreak token
  /-- A slash stands where no operand is expected, after the angle bracket and the tokens before
  it. -/
  divides : ∀ front slash back, inside = front ++ slash :: back → slash.kind = .slash →
    front.foldl operandExpectedAfter true = false
  /-- No statement ends in the list, neither at a semicolon nor at a closing brace before a word
  that begins a statement. -/
  undivided : Statement.Undivided 0 (inside.filter (!·.kind.isTrivia))

namespace TypeList

def text (list : TypeList) : Text := '<' :: (list.middle ++ ['>'])

/-- The tokens of the list on its own. -/
def tokens (list : TypeList) : List Token :=
  ⟨.opening .angle, 0, ['<']⟩ ::
    (list.inside ++ [⟨.closing .angle, 1 + list.middle.byteLength, ['>']⟩])

theorem byteLength_text (list : TypeList) :
    list.text.byteLength = 2 + list.middle.byteLength := by
  have size (mark : Char) (isMark : mark = '<' ∨ mark = '>') : mark.utf8Size = 1 := by
    rcases isMark with rfl | rfl <;> rfl
  simp [text, size]
  omega

/-- The clause that the list is. -/
def clause (list : TypeList) : GenericClause :=
  ⟨list.text, GenericClause.paramNames 0 none false list.inside⟩

/-- Without slashes there is nothing to divide. -/
theorem divides_of_noSlash {inside : List Token} (noSlash : ∀ token ∈ inside, token.kind ≠ .slash) :
    ∀ front slash back, inside = front ++ slash :: back → slash.kind = .slash →
      front.foldl operandExpectedAfter true = false :=
  fun _ slash _ among isSlash => absurd isSlash (noSlash slash (by simp [among]))

/-! ## Reading -/

/-- A token in a list is read alike whatever follows the list. -/
theorem readToken_append (list : TypeList) (rest : Text) {front back : List Token} {here : Token}
    (among : list.inside = front ++ here :: back) {first : Char} {within : Text} {length : Nat}
    (ends : length ≤ within.length)
    (read : readToken (front.foldl operandExpectedAfter true) first (within ++ ['>']) =
      (here.kind, length)) :
    readToken (front.foldl operandExpectedAfter true) first (within ++ '>' :: rest) =
      (here.kind, length) := by
  refine (readToken_endsAlike (.refl '>') (fun isSlash begins inside => ?_) ?_).trans read
  · refine Literal.regexLength?_angle inside fun none => ?_
    -- Otherwise the slash would be one where an operand is expected.
    subst isSlash
    have isSlash : readToken (front.foldl operandExpectedAfter true) '/' (within ++ ['>']) =
        (.slash, 0) := by
      unfold readToken
      rw [if_pos rfl, readSlash_of_noComment begins.noLine begins.noBlock,
        if_pos begins.expected, none]
    have kind : here.kind = .slash := congrArg Prod.fst (read.symm.trans isSlash)
    exact absurd begins.expected (by simp [list.divides front here back among kind])
  · rw [read]
    exact ends

/-- **A list is read as on its own** wherever it stands. -/
theorem tokensFrom_append (list : TypeList) (start : Nat) (operandExpected : Bool) (rest : Text) :
    tokensFrom start operandExpected (list.text ++ rest) =
      list.tokens.map (Token.shift start) ++
        tokensFrom (start + list.text.byteLength) true rest := by
  have own : tokensFrom 1 true (list.middle ++ ['>']) = list.inside ++
      [⟨.closing .angle, 1 + list.middle.byteLength, ['>']⟩,
        ⟨.endOfFile, 2 + list.middle.byteLength, []⟩] := by
    have reads := list.reads
    rw [tokenize, tokensFrom_opening] at reads
    exact (List.cons.inj reads).2
  obtain ⟨expectedThere, _, replaced⟩ := tokensFrom_replaced_of_read
    (fun front here back among first within length _ ends =>
      list.readToken_append rest among ends) rfl own
  have whole : list.text ++ rest = '<' :: (list.middle ++ '>' :: rest) := by
    simp [text]
  have later : (tokensFrom (1 + list.middle.byteLength + 1) true rest).map (Token.shift start) =
      tokensFrom (start + list.text.byteLength) true rest := by
    rw [← tokensFrom_add, byteLength_text]
    congr 1
    omega
  have opening : (⟨.opening .angle, start, ['<']⟩ : Token) =
      Token.shift start ⟨.opening .angle, 0, ['<']⟩ := by
    rw [Token.shift, Nat.zero_add]
  rw [whole, tokensFrom_opening, Nat.add_comm start 1, tokensFrom_add, replaced,
    tokensFrom_closing, List.map_append, List.map_cons, later, opening, tokens, List.map_cons,
    List.map_append, List.cons_append, List.append_assoc]
  rfl

/-! ## The list among other tokens -/

/-- The tokens of a list at a byte offset, without comments. -/
def tokensAt (list : TypeList) (start : Nat) : List Token :=
  ⟨.opening .angle, start, ['<']⟩ :: (Token.codeAt start list.inside ++
    [⟨.closing .angle, start + (1 + list.middle.byteLength), ['>']⟩])

variable (list : TypeList) (start : Nat)

theorem filter_tokensFrom_append (operandExpected : Bool) (rest : Text) :
    (tokensFrom start operandExpected (list.text ++ rest)).filter (!·.kind.isTrivia) =
      list.tokensAt start ++
        (tokensFrom (start + list.text.byteLength) true rest).filter (!·.kind.isTrivia) := by
  have moved : Token.codeAt start list.tokens = list.tokensAt start := by
    rw [tokens, Token.codeAt_enclosed rfl rfl, tokensAt]
    simp [Token.shift, Nat.add_comm]
  rw [tokensFrom_append, List.filter_append, Token.filter_map_shift, moved]

theorem nested_inside : GenericClause.WellNested (Token.codeAt start list.inside) := by
  refine (list.nested.filter fun token dropped => ?_).map (Token.relocates_shift start).toKeepsWords
  exact GenericClause.isPlain_of_skipped (by rw [(Bool.not_eq_false' _).mp dropped, Bool.or_true])

theorem isAngleGroup_tokensAt : GenericClause.IsAngleGroup (list.tokensAt start)
    ⟨.opening .angle, start, ['<']⟩ (Token.codeAt start list.inside)
    ⟨.closing .angle, start + (1 + list.middle.byteLength), ['>']⟩ :=
  ⟨rfl, rfl, rfl, list.nested_inside start⟩

/-- No token of the list is a line break or the end of the file. -/
theorem plain_inside :
    ∀ token ∈ Token.codeAt start list.inside,
      token.kind ≠ .endOfFile ∧ ¬ Statement.isLineBreak token := by
  intro token member
  refine ⟨(list.nested_inside start).ne_endOfFile token member, ?_⟩
  obtain ⟨own, isOwn, rfl⟩ := List.mem_map.mp member
  exact list.oneLine own (List.mem_filter.mp isOwn).1

theorem significant_tokensAt :
    Statement.significant (list.tokensAt start) = list.tokensAt start := by
  refine List.filter_eq_self.mpr ?_
  rw [tokensAt, List.forall_mem_cons, List.forall_mem_append]
  refine ⟨rfl, fun token member => ?_, List.forall_mem_singleton.mpr rfl⟩
  simp [(list.plain_inside start token member).2]

/-- **A list behind a name is the clause**, whatever stands before and behind it. -/
theorem extract?_tokensAt (before after : Text) (more : List Token) :
    GenericClause.extract? (before ++ (list.text ++ after))
      (list.tokensAt before.byteLength ++ more) = some list.clause := by
  have isClause := (list.isAngleGroup_tokensAt before.byteLength).isClause
  have stop : (Token.mk (.closing .angle) (before.byteLength + (1 + list.middle.byteLength))
      ['>']).stop = before.byteLength + list.text.byteLength := by
    have size : Text.byteLength ['>'] = 1 := rfl
    simp only [Token.stop, byteLength_text, size]
    omega
  have params : GenericClause.paramNames 0 none false (Token.codeAt before.byteLength list.inside) =
      GenericClause.paramNames 0 none false list.inside := by
    rw [Token.codeAt, GenericClause.paramNames_map (Token.relocates_shift _),
      GenericClause.paramNames_filter]
    exact fun token dropped => GenericClause.isSilent_of_skipped (by
      rw [(Bool.not_eq_false' _).mp dropped, Bool.or_true])
  rw [isClause.extract?_eq (isClause.tokens?_append more), stop, ← List.append_assoc,
    Text.slice?_append, params]
  rfl

/-! ## The list in a statement -/

/-- The splitter goes on behind a list. -/
theorem splitFrom_tokensAt (pending rest : List Token) :
    Statement.splitFrom 0 pending (list.tokensAt start ++ rest) =
      Statement.splitFrom 0 ((list.tokensAt start).reverse ++ pending) rest := by
  have undivided : Statement.Undivided 0 (Token.codeAt start list.inside) :=
    list.undivided.map (Token.relocates_shift start).toKeepsWords
  have level := (list.nested_inside start).isLevel Statement.counted
  have inside := @Statement.Undivided.splitFrom_append 0 _
    ([⟨.closing .angle, start + (1 + list.middle.byteLength), ['>']⟩] ++ rest) undivided
    (list.plain_inside start) rfl (⟨.opening .angle, start, ['<']⟩ :: pending)
  rw [Statement.depthThrough_eq, level.countThrough_eq] at inside
  rw [tokensAt, List.cons_append, List.append_assoc,
    Statement.splitFrom_cons_of_uncut TokenKind.noConfusion rfl]
  refine inside.trans ?_
  rw [List.singleton_append, Statement.splitFrom_cons_of_uncut TokenKind.noConfusion rfl]
  simp [Statement.depthAfter]

/-- No body begins in a list. -/
theorem opensBody_tokensAt (rest : List Token) :
    Statement.opensBody 0 (list.tokensAt start ++ rest) = Statement.opensBody 0 rest := by
  have level := (list.nested_inside start).isLevel [.angle]
  rw [tokensAt, List.cons_append, List.append_assoc]
  exact level.opensBody_append Nat.one_pos _

end TypeList

end ComponentTsx
