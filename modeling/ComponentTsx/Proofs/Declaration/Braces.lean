import ComponentTsx.Proofs.Declaration.Append
import ComponentTsx.Proofs.Declaration.Grammar
import ComponentTsx.Proofs.Declaration.Outline
import ComponentTsx.Proofs.Statement.Braces
import Mathlib.Data.List.Forall2

/-!
# Declarations do not look into braces

What a statement declares is settled by the words that it begins with and the
token after them, unless it is an import.  A brace is no word, so what stands in
braces plays no part (`begins_iff_of_opening`).  Together with the splitter,
which ends no statement between the braces and the same ones outside them, this
makes a body opaque: whatever it contains, the statements around it stay, each
with its kind (`split_braces`).
-/

namespace ComponentTsx

set_option autoImplicit false

/-! ## Kinds of statements -/

namespace Statement

/-- The kind of declaration, in words, that a statement of a source makes. -/
def shape (source : Text) (statement : Statement) : String :=
  Props.kindName ⟨Declaration.classify source (significant statement.tokens) statement.following⟩

end Statement

namespace Declaration

theorem kindName_withoutClause (props : Option PropsDeclaration) :
    Props.kindName ⟨props.map PropsDeclaration.withoutClause⟩ = Props.kindName ⟨props⟩ := by
  cases props with
  | none => rfl
  | some declared => cases declared <;> rfl

/-- The kind depends on neither the source nor the tokens after the statement. -/
theorem shape_eq_of_tokens {first second : Statement} (same : first.tokens = second.tokens)
    (source other : Text) : first.shape source = second.shape other := by
  rw [Statement.shape, Statement.shape, same, ← kindName_withoutClause,
    classify_withoutClause source other _ _ second.following, kindName_withoutClause]

/-- Statements that begin alike, and not as an import, are of one kind. -/
theorem kindName_classify_eq {first second following later : List Token}
    (interface : BeginsInterface first ↔ BeginsInterface second)
    (typeAlias : BeginsTypeAlias first ↔ BeginsTypeAlias second)
    (noImport : ¬ BeginsImport first ∧ ¬ BeginsImport second) (source other : Text) :
    Props.kindName ⟨classify source first following⟩ =
      Props.kindName ⟨classify other second later⟩ := by
  by_cases isInterface : BeginsInterface first
  · obtain ⟨clause, declares⟩ :=
      exists_classify_of_beginsInterface source first following isInterface
    obtain ⟨otherClause, otherDeclares⟩ :=
      exists_classify_of_beginsInterface other second later (interface.mp isInterface)
    rw [declares, otherDeclares]
    rfl
  by_cases isAlias : BeginsTypeAlias first
  · obtain ⟨clause, declares⟩ := exists_classify_of_beginsTypeAlias source first following isAlias
    obtain ⟨otherClause, otherDeclares⟩ :=
      exists_classify_of_beginsTypeAlias other second later (typeAlias.mp isAlias)
    rw [declares, otherDeclares]
    rfl
  · have none (text : Text) (tokens after : List Token) (noInterface : ¬ BeginsInterface tokens)
        (noAlias : ¬ BeginsTypeAlias tokens) (noImport : ¬ BeginsImport tokens) :
        classify text tokens after = none := by
      refine Option.eq_none_iff_forall_ne_some.mpr fun props declares => ?_
      rcases begins_of_classify text tokens after declares with
        ⟨_, begins⟩ | ⟨_, begins⟩ | ⟨_, begins⟩
      · exact noInterface begins
      · exact noAlias begins
      · exact noImport begins
    rw [none source first following isInterface isAlias noImport.1,
      none other second later (mt interface.mpr isInterface) (mt typeAlias.mpr isAlias) noImport.2]

/-! ## Words before a brace -/

theorem areWords_of_areModifiers {afterExport : Bool} {modifiers : List Token}
    (areModifiers : AreModifiers afterExport modifiers) :
    ∀ word ∈ modifiers, word.isIdentifier := by
  induction modifiers generalizing afterExport with
  | nil => exact fun _ none => nomatch none
  | cons first rest ih =>
      obtain ⟨isModifier, later⟩ := areModifiers_cons.mp areModifiers
      exact List.forall_mem_cons.mpr ⟨isModifier.isIdentifier, ih later⟩

section Words

variable {opening : Token} (noWord : opening.isIdentifier = false)

include noWord

/-- Words that tokens begin with, and the token after them, stand before a brace or end with it. -/
theorem exists_next_of_opening {words rest header back : List Token} {next : Token}
    (areWords : ∀ word ∈ words, word.isIdentifier)
    (whole : header ++ opening :: back = words ++ next :: rest) (other : List Token) :
    ∃ rest, header ++ opening :: other = words ++ next :: rest := by
  rcases List.append_eq_append_iff.mp whole with ⟨more, rfl, later⟩ | ⟨more, rfl, later⟩
  · cases more with
    | nil =>
        obtain ⟨rfl, _⟩ := List.cons.inj later
        exact ⟨other, by simp⟩
    | cons first more =>
        obtain ⟨rfl, _⟩ := List.cons.inj later
        have isWord := areWords opening (by simp)
        rw [noWord] at isWord
        cases isWord
  · cases more with
    | nil =>
        obtain ⟨rfl, _⟩ := List.cons.inj later
        exact ⟨other, by simp⟩
    | cons first more =>
        obtain ⟨rfl, _⟩ := List.cons.inj later
        exact ⟨more ++ opening :: other, by simp⟩

/-- How tokens begin, as long as they begin with a declaration, does not depend on what stands
behind a brace. -/
theorem begins_iff_of_opening (header first second : List Token) :
    (BeginsInterface (header ++ opening :: first) ↔ BeginsInterface (header ++ opening :: second)) ∧
    (BeginsTypeAlias (header ++ opening :: first) ↔ BeginsTypeAlias (header ++ opening :: second)) ∧
    (BeginsImport (header ++ opening :: first) ↔ BeginsImport (header ++ opening :: second)) := by
  have named {modifiers : List Token} {keyword name : Token}
      (areModifiers : AreModifiers false modifiers) (isKeyword : keyword.isIdentifier)
      (isName : name.isIdentifier) : ∀ word ∈ modifiers ++ [keyword, name], word.isIdentifier := by
    simp only [List.forall_mem_append, List.forall_mem_cons, List.not_mem_nil, false_implies,
      implies_true, and_true]
    exact ⟨areWords_of_areModifiers areModifiers, isKeyword, isName⟩
  have interface (back other : List Token) (begins : BeginsInterface (header ++ opening :: back)) :
      BeginsInterface (header ++ opening :: other) := by
    obtain ⟨modifiers, keyword, name, next, rest, whole, areModifiers, isKeyword, isName, goesOn⟩ :=
      begins
    obtain ⟨rest, whole⟩ := exists_next_of_opening noWord (named areModifiers
      (Token.isIdentifier_of_isWord isKeyword) (Token.isIdentifier_of_isWord isName))
      (whole.trans (List.append_assoc modifiers [keyword, name] (next :: rest)).symm) other
    exact ⟨modifiers, keyword, name, next, rest, whole.trans (List.append_assoc ..), areModifiers,
      isKeyword, isName, goesOn⟩
  have typeAlias (back other : List Token) (begins : BeginsTypeAlias (header ++ opening :: back)) :
      BeginsTypeAlias (header ++ opening :: other) := by
    obtain ⟨modifiers, keyword, name, next, rest, whole, areModifiers, noDefault, isKeyword, isName,
      goesOn⟩ := begins
    obtain ⟨rest, whole⟩ := exists_next_of_opening noWord (named areModifiers
      (Token.isIdentifier_of_isWord isKeyword) (Token.isIdentifier_of_isWord isName))
      (whole.trans (List.append_assoc modifiers [keyword, name] (next :: rest)).symm) other
    exact ⟨modifiers, keyword, name, next, rest, whole.trans (List.append_assoc ..), areModifiers,
      noDefault, isKeyword, isName, goesOn⟩
  have imports (back other : List Token) (begins : BeginsImport (header ++ opening :: back)) :
      BeginsImport (header ++ opening :: other) := by
    obtain ⟨modifiers, keyword, rest, whole, areModifiers, noDefault, isKeyword⟩ := begins
    obtain ⟨rest, whole⟩ :=
      exists_next_of_opening noWord (areWords_of_areModifiers areModifiers) whole other
    exact ⟨modifiers, keyword, rest, whole, areModifiers, noDefault, isKeyword⟩
  exact ⟨⟨interface first second, interface second first⟩,
    ⟨typeAlias first second, typeAlias second first⟩, ⟨imports first second, imports second first⟩⟩

end Words

/-! ## Statements -/

section Braces

variable {opening closing eof : Token} {before inside after : List Token}

theorem significant_opening (opens : opening.kind = .opening .brace) (header rest : List Token) :
    Statement.significant (header ++ opening :: rest) =
      Statement.significant header ++ opening :: Statement.significant rest := by
  rw [Statement.significant_append,
    Statement.significant_cons (by simp [Statement.isLineBreak_opening opens])]

/--
**Braced bodies are opaque.**  Level tokens put between two braces of a preamble move the tokens
behind the opening brace and change no end of a statement; no statement begins or ends in them.
Each statement keeps its kind, up to the one with the braces in it if that is an import.
-/
theorem split_braces (opens : opening.kind = .opening .brace)
    (closes : closing.kind = .closing .brace) (isEnd : eof.kind = .endOfFile)
    (noEnd : ∀ token ∈ before ++ inside, token.kind ≠ .endOfFile)
    (level : Statement.IsLevel Statement.counted inside)
    (angles : Statement.InHeaderAngles (before ++ opening :: closing :: (after ++ [eof]))
      before.length → Statement.IsLevel [.angle] inside) :
    let bare := before ++ opening :: closing :: (after ++ [eof])
    let filled := before ++ opening :: (inside ++ closing :: (after ++ [eof]))
    let move := Statement.movedBehind before.length inside.length
    Statement.positions filled = (Statement.positions bare).map (Prod.map move move) ∧
    (∀ place ∈ Statement.positions filled, ∀ side ∈ [place.1, place.2],
      side ≤ before.length ∨ before.length + inside.length + 2 ≤ side) ∧
    List.Forall₂ (fun statement other =>
      (statement.Holds bare.length before.length →
        ¬ BeginsImport (Statement.significant statement.tokens)) →
      ∀ source otherSource, statement.shape source = other.shape otherSource)
      (Statement.split bare) (Statement.split filled) := by
  intro bare filled move
  obtain ⟨inStep, apart⟩ := Statement.positions_braces opens closes isEnd noEnd level angles
  refine ⟨inStep, apart, ?_⟩
  obtain ⟨earlier, header, body, following, later, ⟨prior, whole⟩, rest, inOrder, isBare,
    isFilled⟩ := Statement.exists_split_braces opens closes isEnd noEnd level angles
  rw [isBare, isFilled]
  refine List.rel_append ?_ (.cons (fun noImport source other => ?_) ?_)
  · rw [List.forall₂_map_left_iff, List.forall₂_map_right_iff]
    exact List.forall₂_same.mpr fun statement _ _ source other =>
      shape_eq_of_tokens (by rfl) source other
  · have holds : (⟨header ++ opening :: closing :: body, following⟩ : Statement).Holds bare.length
        before.length := by
      have count := congrArg List.length rest
      have places := congrArg List.length whole
      simp only [Statement.Holds, Statement.bounds, bare, List.length_append, List.length_cons,
        List.length_nil] at count places ⊢
      omega
    have noImport := noImport holds
    have noWord : opening.isIdentifier = false := by simp [Token.isIdentifier, opens]
    simp only [Statement.shape, significant_opening opens] at noImport ⊢
    obtain ⟨interface, typeAlias, imports⟩ := begins_iff_of_opening noWord _ _ _
    exact kindName_classify_eq interface typeAlias ⟨noImport, mt imports.mpr noImport⟩ source other
  · exact List.forall₂_same.mpr fun statement _ _ source other =>
      shape_eq_of_tokens rfl source other

/-- Braces in the type parameters of an interface whose body begins on the next line. -/
theorem split_braces_header :
    let tokens :=
      tokenize "interface Props<T extends \x7b a: Set<T>\n \x7d>\n\x7b \x7d".toList
    let before := tokens.take 5
    let inside := (tokens.drop 6).take 7
    let after := (tokens.drop 14).take 4
    (Statement.IsLevel Statement.counted inside ∧ Statement.IsLevel [.angle] inside) ∧
      Statement.positions tokens = [(0, 18)] ∧
      tokens = before ++ ⟨.opening .brace, 26, ['{']⟩ ::
        (inside ++ ⟨.closing .brace, 39, ['}']⟩ :: (after ++ [⟨.endOfFile, 45, []⟩])) := by
  intro tokens before inside after
  have level : Statement.IsLevel Statement.counted inside := by decide +kernel
  have angles : Statement.IsLevel [.angle] inside := by decide +kernel
  have noEnd : ∀ token ∈ before ++ inside, token.kind ≠ .endOfFile := by decide +kernel
  have whole : tokens = before ++ ⟨.opening .brace, 26, ['{']⟩ ::
      (inside ++ ⟨.closing .brace, 39, ['}']⟩ :: (after ++ [⟨.endOfFile, 45, []⟩])) := by
    decide +kernel
  refine ⟨⟨level, angles⟩, ?_, whole⟩
  have header : Statement.InHeaderAngles (before ++ ⟨.opening .brace, 26, ['{']⟩ ::
      ⟨.closing .brace, 39, ['}']⟩ :: (after ++ [⟨.endOfFile, 45, []⟩])) before.length →
      Statement.IsLevel [.angle] inside := fun _ => angles
  rw [whole, (split_braces rfl rfl rfl noEnd level header).1]
  decide +kernel

end Braces

end Declaration

end ComponentTsx
