import ComponentTsx.Proofs.Token.Relocation
import ComponentTsx.Statement

/-!
# Statements of tokens at other places

Where the tokens of a preamble stand plays no part in how they are cut into
statements, and neither do the texts of tokens that are no words: the statements
of changed tokens are the statements, changed (`splitFrom_map`).
-/

namespace ComponentTsx.Statement

set_option autoImplicit false

/-- The statement with all its tokens changed. -/
def relocate (move : Token → Token) (statement : Statement) : Statement :=
  ⟨statement.tokens.map move, statement.following.map move⟩

section Relocation

variable {move : Token → Token} (keeps : Token.KeepsWords move)

include keeps

theorem isLineBreak_move (token : Token) : isLineBreak (move token) = isLineBreak token := by
  rw [isLineBreak, keeps.kind, isLineBreak]

theorem significant_map (tokens : List Token) :
    significant (tokens.map move) = (significant tokens).map move := by
  simp only [significant, List.filter_map, Function.comp_def, isLineBreak_move keeps]

theorem continuesAfter_move (token : Token) :
    continuesAfter (move token) = continuesAfter token := by
  simp only [continuesAfter, keeps.kind, keeps.isOneOf]

theorem continuesBefore_move (token : Token) :
    continuesBefore (move token) = continuesBefore token := by
  simp only [continuesBefore, keeps.kind, keeps.isOneOf]

theorem opensBody_map (angles : Nat) (tokens : List Token) :
    opensBody angles (tokens.map move) = opensBody angles tokens := by
  induction tokens generalizing angles with
  | nil => rfl
  | cons token rest ih => simp only [List.map_cons, opensBody, keeps.kind, ih]

theorem awaitsInterfaceBody_map (header : List Token) :
    awaitsInterfaceBody (header.map move) = awaitsInterfaceBody header := by
  simp only [awaitsInterfaceBody, significant_map keeps, List.dropWhile_map,
    Function.comp_def, keeps.isOneOf, opensBody_map keeps, List.head?_map, Option.any_map,
    keeps.isWord]

theorem continuesAcross_map (pending rest : List Token) :
    continuesAcross (pending.map move) (rest.map move) = continuesAcross pending rest := by
  simp only [continuesAcross, List.find?_map, Function.comp_def, isLineBreak_move keeps,
    Option.any_map, continuesAfter_move keeps, continuesBefore_move keeps,
    keeps.kind, ← List.map_reverse, awaitsInterfaceBody_map keeps]

theorem depthAfter_move (depth : Nat) (token : Token) :
    depthAfter depth (move token) = depthAfter depth token := by
  simp only [depthAfter, keeps.kind]

theorem endsWith_move (depth : Nat) (token : Token) (rest : List Token) :
    endsWith depth (move token) (rest.map move) = endsWith depth token rest := by
  simp only [endsWith, keeps.kind, List.head?_map, Option.any_map, keeps.isOneOf]

/-- The statements of changed tokens are the statements, changed. -/
theorem splitFrom_map (depth : Nat) (pending tokens : List Token) :
    splitFrom depth (pending.map move) (tokens.map move) =
      (splitFrom depth pending tokens).map (relocate move) := by
  induction tokens generalizing depth pending with
  | nil => rfl
  | cons token rest ih =>
      have none := ih 0 []
      have next := ih (depthAfter depth token) (token :: pending)
      rw [List.map_nil] at none
      rw [List.map_cons] at next
      simp only [List.map_cons, splitFrom, keeps.kind, isLineBreak_move keeps,
        continuesAcross_map keeps, depthAfter_move keeps, endsWith_move keeps, none,
        next]
      split
      · simp [relocate]
      · split
        · simp [relocate]
        · split
          · simp [relocate]
          · rfl

end Relocation

end ComponentTsx.Statement
