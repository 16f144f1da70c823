import ComponentTsx.Proofs.Declaration.ClauseExtent
import ComponentTsx.Proofs.Declaration.Grammar
import ComponentTsx.Proofs.Statement.Header

/-!
# The layout of local declarations

An interface or a type alias `Props` has gaps between its parts, in which a line
may end (`LocalDeclaration`, `Layout`).  The splitter judges each of them on its
own: a line may begin with `extends` or an equals sign, and end with one of
these, and the body may follow the header of an interface on the next line.  So
line breaks in these gaps change nothing (`scan_text_of_onLine`).

The gap between the name and the clause is the one that is missed.  An angle
bracket goes on with the line that it ends but not with the line before it,
although the reader of clauses skips line breaks before it.  If the clause
begins on a later line, the statement ends with the name and declares nothing
(`exists_scan_text_eq_cons`).
-/

namespace ComponentTsx

set_option autoImplicit false

/-! ## Written declarations -/

/-- What stands between two parts of a declaration: blanks, comments and line breaks. -/
structure Gap where
  text : Text
  isGap : IsGap True text
  nonempty : text ≠ []

/-- What an interface extends: a name, and its type arguments on the same line. -/
structure Heritage where
  name : Text
  isWord : name.isWord
  gap : Text
  onLine : IsGap False gap
  arguments : Option TypeList

/-- What kind of declaration it is, and what an interface extends. -/
inductive DeclarationHead where
  | interface (heritage : Option Heritage)
  | typeAlias

/-- A declaration of `Props` with a body in braces. -/
structure LocalDeclaration where
  exported : Bool
  head : DeclarationHead
  clause : Option TypeList
  body : BracedBody

/-- What stands in the gaps of a declaration, which may lack some of them. -/
structure Layout where
  /-- Between the name and the clause, where nothing need stand. -/
  beforeClause : Text
  isGap : IsGap True beforeClause
  /-- Before `extends` or the equals sign. -/
  beforeMark : Gap
  /-- After `extends` or the equals sign. -/
  afterMark : Gap
  /-- Between the header of an interface and its body. -/
  beforeBody : Gap

namespace LocalDeclaration

/-- The word that a declaration begins with, modifiers aside. -/
def keyword : DeclarationHead → String
  | .interface _ => "interface"
  | .typeAlias => "type"

theorem isWord_keywords : Text.isWord "interface".toList ∧ Text.isWord "type".toList := ⟨rfl, rfl⟩

def keywordPart : DeclarationHead → HeaderPart
  | .interface _ => .word "interface".toList isWord_keywords.1
  | .typeAlias => .word "type".toList isWord_keywords.2

def extendsPart : HeaderPart := .word "extends".toList rfl

/-- A part with a blank before it. -/
def spaced (part : HeaderPart) : PlacedPart := ⟨[' '], part, .blank rfl .nil⟩

variable (declaration : LocalDeclaration) (layout : Layout)

/-- The parts up to the name. -/
def opening : List PlacedPart :=
  match declaration.exported with
  | true => [⟨[], .word "export".toList rfl, .nil⟩, spaced (keywordPart declaration.head),
      spaced (.word "Props".toList rfl)]
  | false => [⟨[], keywordPart declaration.head, .nil⟩, spaced (.word "Props".toList rfl)]

def clauseParts : List PlacedPart :=
  match declaration.clause with
  | none => []
  | some types => [⟨layout.beforeClause, .list types, layout.isGap⟩]

/-- The parts between the clause and the body. -/
def markParts : List PlacedPart :=
  match declaration.head with
  | .interface none => []
  | .interface (some heritage) =>
      ⟨layout.beforeMark.text, extendsPart, layout.beforeMark.isGap⟩ ::
        ⟨layout.afterMark.text, .word heritage.name heritage.isWord, layout.afterMark.isGap⟩ ::
          match heritage.arguments with
          | none => []
          | some types => [⟨heritage.gap, .list types, heritage.onLine.mono False.elim⟩]
  | .typeAlias => [⟨layout.beforeMark.text, .equals, layout.beforeMark.isGap⟩]

/-- The parts of the header. -/
def parts : List PlacedPart :=
  declaration.opening ++ (declaration.clauseParts layout ++ declaration.markParts layout)

/-- The gap before the body. -/
def lastGap : Gap :=
  match declaration.head with
  | .interface _ => layout.beforeBody
  | .typeAlias => layout.afterMark

/-- The declaration as it is written in a layout. -/
def text : Text :=
  headerText (declaration.parts layout) ++
    ((declaration.lastGap layout).text ++ declaration.body.text)

/-- What the declaration declares. -/
def props : PropsDeclaration :=
  match declaration.head with
  | .interface _ => .interface (declaration.clause.map TypeList.clause)
  | .typeAlias => .typeAlias (declaration.clause.map TypeList.clause)

open Statement

/-! ## One statement -/

variable {layout}

theorem continues_extendsPart : extendsPart.continuesAfter ∧ extendsPart.continuesBefore :=
  ⟨rfl, rfl⟩

/-- A line may begin with `extends` or an equals sign. -/
theorem joins_markParts (earlier : PlacedPart) :
    ∀ placed ∈ (declaration.markParts layout).head?, earlier.Joins placed := by
  have apart (gap : Gap) : gap.text ≠ [] := gap.nonempty
  rw [markParts]
  intro placed isFirst
  split at isFirst
  · cases isFirst
  · cases isFirst
    exact ⟨fun missing => absurd missing (apart _), .inr (.inr continues_extendsPart.2)⟩
  · cases isFirst
    exact ⟨fun missing => absurd missing (apart _), .inr (.inr rfl)⟩

/-- A line may end with `extends`. -/
theorem isChain_markParts : (declaration.markParts layout).IsChain PlacedPart.Joins := by
  have apart (gap : Gap) : gap.text ≠ [] := gap.nonempty
  obtain ⟨exported, head, clause, body⟩ := declaration
  rcases head with (_ | ⟨name, isWord, gap, onLine, _ | types⟩) | _ <;>
    simp [markParts, PlacedPart.joins_iff, continues_extendsPart, *]

theorem isChain_opening : declaration.opening.IsChain PlacedPart.Joins := by
  have space : IsGap False [' '] := .blank rfl .nil
  rw [opening]
  cases declaration.exported <;> simp [PlacedPart.joins_iff, spaced, space]

/-- The parts of a header join if the clause stands on the line of the name. -/
theorem isChain_parts
    (onLine : declaration.clause.isSome → IsGap False layout.beforeClause) :
    (declaration.parts layout).IsChain PlacedPart.Joins := by
  have opening := declaration.isChain_opening
  cases clause : declaration.clause with
  | none =>
      rw [parts, clauseParts, clause]
      exact List.isChain_append.mpr ⟨opening, declaration.isChain_markParts,
        fun earlier _ => declaration.joins_markParts earlier⟩
  | some types =>
      rw [clause] at onLine
      rw [parts, clauseParts, clause]
      refine List.isChain_append.mpr ⟨opening, List.isChain_cons.mpr
        ⟨declaration.joins_markParts _, declaration.isChain_markParts⟩, fun earlier _ => ?_⟩
      rintro placed ⟨⟩
      exact ⟨fun _ => ⟨types, rfl⟩, .inl (onLine rfl)⟩

theorem isGap_head_opening (more : List PlacedPart) :
    ∀ placed ∈ (declaration.opening ++ more).head?, IsGap False placed.gap := by
  rw [opening]
  cases declaration.exported with
  | true =>
      rintro placed ⟨⟩
      exact .nil
  | false =>
      rintro placed ⟨⟩
      exact .nil

/-- The header goes on to the body. -/
theorem continuesAcross_body (start : Nat) (rest : List Token) :
    continuesAcross (headerTokens 0 (declaration.parts layout)).reverse
      (declaration.body.tokensAt start ++ rest) := by
  cases head : declaration.head with
  | interface heritage =>
      have awaits : awaitsInterfaceBody (headerTokens 0 (declaration.parts layout)) := by
        rw [awaitsInterfaceBody, significant_headerTokens, opensBody_headerTokens, parts,
          headerTokens_append, opening, head]
        cases declaration.exported <;> rfl
      simp [continuesAcross, BracedBody.tokensAt, isLineBreak, awaits]
  | typeAlias =>
      have marks : declaration.markParts layout =
          [⟨layout.beforeMark.text, .equals, layout.beforeMark.isGap⟩] := by
        rw [markParts, head]
      rw [parts, marks, ← List.append_assoc, headerTokens_append, headerTokens, headerTokens,
        List.append_nil, List.reverse_append]
      exact HeaderPart.continuesAcross_of_continuesAfter _ rfl _ _

end LocalDeclaration

/-! ## One declaration -/

namespace Declaration

open Statement LocalDeclaration

variable (declaration : LocalDeclaration) (layout : Layout)

/-- What the header begins with, up to the name. -/
theorem exists_headerTokens_opening :
    ∃ modifiers keyword name,
      headerTokens 0 declaration.opening = modifiers ++ [keyword, name] ∧
      AreModifiers false modifiers ∧ exportsDefault modifiers = false ∧
      keyword.isWord (LocalDeclaration.keyword declaration.head) ∧ name.isWord "Props" ∧
      name.stop = (headerText declaration.opening).byteLength ∧
      ∃ first, (headerTokens 0 declaration.opening).head? = some first ∧ first.start = 0 := by
  have exported : AreModifiers false [⟨.identifier, 0, "export".toList⟩] :=
    areModifiers_cons.mpr ⟨.inl rfl, areModifiers_nil _⟩
  have isName (start : Nat) : Token.isWord "Props" ⟨.identifier, start, "Props".toList⟩ := rfl
  have isInterface (start : Nat) :
      Token.isWord "interface" ⟨.identifier, start, "interface".toList⟩ := rfl
  have isType (start : Nat) : Token.isWord "type" ⟨.identifier, start, "type".toList⟩ := rfl
  rw [opening]
  cases declaration.head with
  | interface heritage =>
      cases declaration.exported with
      | true =>
          exact ⟨[⟨.identifier, 0, "export".toList⟩], _, _, rfl, exported, rfl, isInterface _,
            isName _, rfl, ⟨_, rfl, rfl⟩⟩
      | false =>
          exact ⟨[], _, _, rfl, areModifiers_nil _, rfl, isInterface _, isName _,
            rfl, ⟨_, rfl, rfl⟩⟩
  | typeAlias =>
      cases declaration.exported with
      | true =>
          exact ⟨[⟨.identifier, 0, "export".toList⟩], _, _, rfl, exported, rfl, isType _, isName _,
            rfl, ⟨_, rfl, rfl⟩⟩
      | false =>
          exact ⟨[], _, _, rfl, areModifiers_nil _, rfl, isType _, isName _,
            rfl, ⟨_, rfl, rfl⟩⟩

/-- Whether a token may follow the name. -/
def follows : DeclarationHead → Token → Bool
  | .interface _ => followsInterfaceName
  | .typeAlias => followsAliasName

theorem classify_local {source : Text} {modifiers rest following : List Token}
    {keyword name next : Token} (areModifiers : AreModifiers false modifiers)
    (noDefault : exportsDefault modifiers = false)
    (isKeyword : keyword.isWord (LocalDeclaration.keyword declaration.head))
    (isProps : name.isWord "Props") (isNext : follows declaration.head next)
    (clause : GenericClause.extract? source (next :: rest ++ following) =
      declaration.clause.map TypeList.clause) :
    classify source (modifiers ++ keyword :: name :: next :: rest) following =
      some declaration.props := by
  rw [LocalDeclaration.props]
  cases head : declaration.head with
  | interface heritage =>
      rw [head] at isKeyword isNext
      rw [classify_interface source following areModifiers isKeyword isProps isNext, clause]
  | typeAlias =>
      rw [head] at isKeyword isNext
      rw [classify_typeAlias source following areModifiers noDefault isKeyword isProps isNext,
        clause]

/-- The tokens behind the name, without comments and line breaks. -/
def tokensBehindName : List Token :=
  headerTokens (headerText declaration.opening).byteLength
      (declaration.clauseParts layout ++ declaration.markParts layout) ++
    significant (declaration.body.tokensAt
      ((headerText (declaration.parts layout)).byteLength +
        (declaration.lastGap layout).text.byteLength))

/-- Behind the name stands a token that may follow it. -/
theorem exists_tokensBehindName_eq :
    ∃ next rest, tokensBehindName declaration layout = next :: rest ∧
      follows declaration.head next ∧
      (next.kind = .opening .angle ↔ declaration.clause.isSome) := by
  have noList (none : false = true) : False := Bool.false_ne_true none
  rw [tokensBehindName, clauseParts, markParts]
  cases declaration.clause with
  | none =>
      cases declaration.head with
      | interface heritage =>
          cases heritage with
          | none => exact ⟨_, _, rfl, rfl, iff_of_false (by simp) noList⟩
          | some heritage => exact ⟨_, _, rfl, rfl, iff_of_false (by simp) noList⟩
      | typeAlias => exact ⟨_, _, rfl, rfl, iff_of_false (by simp) noList⟩
  | some types => exact ⟨_, _, rfl, by cases declaration.head <;> rfl, iff_of_true rfl rfl⟩

/-- The clause stands behind the name and the gap. -/
theorem exists_text_eq {types : TypeList} (clause : declaration.clause = some types) :
    ∃ rest, declaration.text layout =
      headerText declaration.opening ++ (layout.beforeClause ++ (types.text ++ rest)) := by
  refine ⟨headerText (declaration.markParts layout) ++
    ((declaration.lastGap layout).text ++ declaration.body.text), ?_⟩
  rw [LocalDeclaration.text, parts, clauseParts, clause]
  simp [headerText_append, headerText, HeaderPart.text]

/-- The clause is read behind the name if there is one. -/
theorem extract?_tokensBehindName (following : List Token) :
    GenericClause.extract? (declaration.text layout)
      (tokensBehindName declaration layout ++ following) =
        declaration.clause.map TypeList.clause := by
  cases clause : declaration.clause with
  | none =>
      obtain ⟨next, rest, isNext, isFollowing, isAngle⟩ :=
        exists_tokensBehindName_eq declaration layout
      have kept : (isLineBreak next || next.kind.isTrivia) = false := by
        cases head : declaration.head with
        | interface heritage =>
            rw [head] at isFollowing
            exact not_skipped_of_follows (.inl isFollowing)
        | typeAlias =>
            rw [head] at isFollowing
            exact not_skipped_of_follows (.inr isFollowing)
      have noAngle : next.kind ≠ .opening .angle := by
        rw [Ne, isAngle, clause]
        exact Bool.false_ne_true
      rw [isNext, List.cons_append, GenericClause.extract?, GenericClause.tokens?_cons kept,
        if_neg noAngle]
      rfl
  | some types =>
      obtain ⟨after, source⟩ := exists_text_eq declaration layout clause
      have read := types.extract?_tokensAt
        (headerText declaration.opening ++ layout.beforeClause) after
      rw [List.append_assoc, ← source, Text.byteLength_append] at read
      rw [tokensBehindName, clauseParts, clause, List.append_assoc, List.singleton_append,
        headerTokens, List.append_assoc]
      exact read _

/-- **A declaration is one declaration** where its clause stands on the line of the name. -/
theorem scan_text_of_onLine
    (onLine : declaration.clause.isSome → IsGap False layout.beforeClause) :
    scan (declaration.text layout) =
      [⟨some declaration.props, ⟨0, (declaration.text layout).byteLength⟩⟩] := by
  obtain ⟨tokens, stop, one, same⟩ := exists_split_header
    (declaration.isChain_parts onLine) (declaration.isGap_head_opening _)
    (declaration.lastGap layout).isGap (declaration.lastGap layout).nonempty declaration.body
    declaration.continuesAcross_body
  have isStatement : statements (declaration.text layout) =
      [⟨tokens, [⟨.endOfFile, stop, []⟩]⟩] := one
  have whole : significant tokens =
      headerTokens 0 declaration.opening ++ tokensBehindName declaration layout := by
    rw [same, parts, headerTokens_append, Nat.zero_add, List.append_assoc]
    rfl
  obtain ⟨modifiers, keyword, name, header, areModifiers, noDefault, isKeyword, isName,
    _, first, isFirst, start⟩ := exists_headerTokens_opening declaration
  obtain ⟨last, isLast, ends⟩ := declaration.body.exists_getLast?_tokensAt
    ((headerText (declaration.parts layout)).byteLength +
      (declaration.lastGap layout).text.byteLength)
  have isHead : (significant tokens).head? = some first := by
    rw [whole, List.head?_append, isFirst, Option.some_or]
  have isEnd : (significant tokens).getLast? = some last := by
    rw [same, List.getLast?_append, isLast, Option.some_or]
  obtain ⟨next, rest, isNext, isFollowing, _⟩ := exists_tokensBehindName_eq declaration layout
  have clause := extract?_tokensBehindName declaration layout [⟨.endOfFile, stop, []⟩]
  rw [isNext] at clause
  have declares := classify_local declaration areModifiers noDefault isKeyword isName isFollowing
    clause
  have isTokens : significant tokens = modifiers ++ keyword :: name :: next :: rest := by
    rw [whole, header, isNext, List.append_assoc]
    rfl
  have length : (declaration.text layout).byteLength =
      (headerText (declaration.parts layout)).byteLength +
        (declaration.lastGap layout).text.byteLength + declaration.body.text.byteLength := by
    rw [LocalDeclaration.text, Text.byteLength_append, Text.byteLength_append, Nat.add_assoc]
  rw [scan_eq_cons isStatement isHead isEnd, isTokens, declares, start, ends, length,
    List.filterMap_nil]

theorem classify_opening {source : Text} {modifiers following : List Token}
    {keyword name : Token} (areModifiers : AreModifiers false modifiers)
    (isKeyword : keyword.isWord (LocalDeclaration.keyword declaration.head)) :
    classify source (modifiers ++ [keyword, name]) following = none := by
  cases head : declaration.head with
  | interface heritage =>
      rw [head] at isKeyword
      have isInterface : keyword.isWord "interface" := isKeyword
      simp [classify, stripModifiers_append areModifiers isInterface (by decide), isInterface]
  | typeAlias =>
      rw [head] at isKeyword
      have isType : keyword.isWord "type" := isKeyword
      have noInterface := Token.isWord_eq_false isType (by decide : _ ≠ "interface".toList)
      have noImport := Token.isWord_eq_false isType (by decide : _ ≠ "import".toList)
      simp [classify, stripModifiers_append areModifiers isType (by decide), noInterface, noImport]

/-- Where the clause stands on a later line, the statement ends with the name. -/
theorem exists_scan_text_eq_cons {types : TypeList} (clause : declaration.clause = some types)
    (breaks : ¬ IsGap False layout.beforeClause) :
    ∃ later, scan (declaration.text layout) =
      ⟨none, ⟨0, (headerText declaration.opening).byteLength⟩⟩ :: later := by
  have ends (start : Nat) (rest : List Token) : continuesAcross
      (headerTokens 0 declaration.opening).reverse (types.tokensAt start ++ rest) = false := by
    rw [opening]
    cases declaration.exported <;> cases declaration.head <;> rfl
  obtain ⟨rest, source⟩ := exists_text_eq declaration layout clause
  obtain ⟨tokens, following, others, begins, same⟩ := exists_split_header_list
    declaration.isChain_opening (List.append_nil declaration.opening ▸
      declaration.isGap_head_opening []) layout.isGap breaks types ends rest
  rw [← source] at begins
  obtain ⟨modifiers, keyword, name, header, areModifiers, _, isKeyword, _, ends, first,
    isFirst, start⟩ := exists_headerTokens_opening declaration
  have isHead : (significant tokens).head? = some first := by rw [same, isFirst]
  have isEnd : (significant tokens).getLast? = some name := by
    rw [same, header, List.append_cons]
    exact List.getLast?_concat
  exact ⟨_, by rw [scan_eq_cons begins isHead isEnd, start, ends, same, header,
    classify_opening declaration areModifiers isKeyword]⟩

/--
**The layout of a declaration does not matter, except before the clause.**  A declaration of `Props`
is scanned as one declaration with its clause, wherever a gap of its header has line breaks, exactly
when there is no clause or the clause begins on the line of the name.
-/
theorem scan_text_iff :
    scan (declaration.text layout) =
        [⟨some declaration.props, ⟨0, (declaration.text layout).byteLength⟩⟩] ↔
      (declaration.clause.isSome → IsGap False layout.beforeClause) := by
  refine ⟨fun one isSome => ?_, scan_text_of_onLine declaration layout⟩
  obtain ⟨types, clause⟩ := Option.isSome_iff_exists.mp isSome
  by_contra breaks
  obtain ⟨later, none⟩ := exists_scan_text_eq_cons declaration layout clause breaks
  cases (List.cons.inj (one.symm.trans none)).1

/-- A header on four lines, with a clause and with type arguments in its heritage. -/
theorem scan_text_iff_lines :
    let clause : TypeList :=
      { middle := "T".toList
        inside := [⟨.identifier, 1, "T".toList⟩]
        reads := by decide +kernel
        nested := .plain rfl .nil
        oneLine := by decide
        divides := TypeList.divides_of_noSlash (by decide)
        undivided := by decide }
    let arguments : TypeList :=
      { middle := "T[]".toList
        inside := [⟨.identifier, 1, "T".toList⟩, ⟨.opening .square, 2, "[".toList⟩,
          ⟨.closing .square, 3, "]".toList⟩]
        reads := by decide +kernel
        nested := .plain rfl (.pair rfl rfl .nil .nil)
        oneLine := by decide
        divides := TypeList.divides_of_noSlash (by decide)
        undivided := by decide }
    let declaration : LocalDeclaration :=
      { exported := true
        head := .interface (some ⟨"Base".toList, rfl, [], .nil, some arguments⟩)
        clause := some clause
        body := ⟨"\n".toList, [⟨.newline, 1, "\n".toList⟩], by decide +kernel, by decide⟩ }
    let line : Gap := ⟨"\n".toList, .lineBreak trivial .nil, by decide⟩
    let layout : Layout := ⟨[], .nil, line, line, line⟩
    declaration.text layout = "export interface Props<T>\nextends\nBase<T[]>\n\x7b\n\x7d".toList ∧
      scan (declaration.text layout) =
        [⟨some (.interface (some ⟨"<T>".toList, ["T".toList]⟩)), ⟨0, 47⟩⟩] := by
  intro clause arguments declaration line layout
  have one := (scan_text_iff declaration layout).mpr fun _ => .nil
  exact ⟨by decide +kernel, one.trans (by decide +kernel)⟩

/-- With the clause on the line below, the name is left alone and nothing is declared. -/
theorem scan_text_break :
    scan "interface Props <T> \x7b\x7d".toList =
        [⟨some (.interface (some ⟨"<T>".toList, ["T".toList]⟩)), ⟨0, 22⟩⟩] ∧
      scan "interface Props\n<T> \x7b\x7d".toList = [⟨none, ⟨0, 15⟩⟩, ⟨none, ⟨16, 22⟩⟩] := by
  decide +kernel

end Declaration

end ComponentTsx
