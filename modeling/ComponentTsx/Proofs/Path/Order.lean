import ComponentTsx.Discovery

/-!
# The order of paths

Names come by code points, and paths component by component: what counts is the
first place where two lists differ (`lexLe`).  Such an order is linear if the
order of distinct items is (`OrdersDistinct`).  So paths with the same components
stand beside each other in a sorted list, and exactly one of them is kept
(`inOrder_subset_and_increasing`, `exists_mem_inOrder`).
-/

namespace ComponentTsx

set_option autoImplicit false

/-! ## Lexicographic order -/

/-- An order under which distinct items have one order, whatever it says of equal ones. -/
structure OrdersDistinct {α : Type} (le : α → α → Bool) : Prop where
  antisymm : ∀ {first second : α}, le first second → le second first → first = second
  total : ∀ {first second : α}, first ≠ second → le first second ∨ le second first
  trans : ∀ {first second third : α}, le first second → le second third → le first third

section Lexicographic

variable {α : Type} [DecidableEq α]

/-- Whether one list comes no later than another, by the first items that differ. -/
def lexLe (le : α → α → Bool) : List α → List α → Bool
  | [], _ => true
  | _ :: _, [] => false
  | first :: rest, second :: others =>
      if first = second then lexLe le rest others else le first second

variable {le : α → α → Bool} (orders : OrdersDistinct le)

include orders

theorem OrdersDistinct.lexLe_total (first second : List α) :
    lexLe le first second ∨ lexLe le second first := by
  induction first generalizing second with
  | nil => exact .inl rfl
  | cons head rest ih =>
      cases second with
      | nil => exact .inr rfl
      | cons other others =>
          rw [lexLe, lexLe]
          by_cases same : head = other
          · rw [if_pos same, if_pos same.symm]
            exact ih others
          · rw [if_neg same, if_neg (Ne.symm same)]
            exact orders.total same

theorem OrdersDistinct.lexLe_antisymm {first second : List α} (le' : lexLe le first second)
    (ge : lexLe le second first) : first = second := by
  induction first generalizing second with
  | nil =>
      cases second with
      | nil => rfl
      | cons other others => cases ge
  | cons head rest ih =>
      cases second with
      | nil => cases le'
      | cons other others =>
          rw [lexLe] at le' ge
          by_cases same : head = other
          · rw [if_pos same] at le'
            rw [if_pos same.symm] at ge
            rw [same, ih le' ge]
          · rw [if_neg same] at le'
            rw [if_neg (Ne.symm same)] at ge
            exact absurd (orders.antisymm le' ge) same

theorem OrdersDistinct.lexLe_trans {first second third : List α} (before : lexLe le first second)
    (after : lexLe le second third) : lexLe le first third := by
  induction first generalizing second third with
  | nil => rfl
  | cons head rest ih =>
      cases second with
      | nil => cases before
      | cons middle between =>
          cases third with
          | nil => cases after
          | cons last others =>
              rw [lexLe] at before after ⊢
              by_cases toMiddle : head = middle
              · subst toMiddle
                rw [if_pos rfl] at before
                by_cases toLast : head = last
                · rw [if_pos toLast] at after ⊢
                  exact ih before after
                · rw [if_neg toLast] at after ⊢
                  exact after
              · rw [if_neg toMiddle] at before
                by_cases fromMiddle : middle = last
                · subst fromMiddle
                  rwa [if_neg toMiddle]
                · rw [if_neg fromMiddle] at after
                  -- Two steps in opposite directions do not lead back to the first item.
                  have apart : head ≠ last := by
                    rintro rfl
                    exact toMiddle (orders.antisymm before after)
                  rw [if_neg apart]
                  exact orders.trans before after

end Lexicographic

/-! ## Components -/

namespace Path

theorem ordersDistinct_char :
    OrdersDistinct fun first second : Char => decide (first.toNat < second.toNat) where
  antisymm := by
    intro first second before after
    rw [decide_eq_true_eq] at before after
    exact absurd before (Nat.lt_asymm after)
  total := by
    intro first second apart
    rw [decide_eq_true_eq, decide_eq_true_eq]
    exact Nat.lt_or_gt_of_ne (mt Char.toNat_inj.mp apart)
  trans := by
    intro first second third before after
    rw [decide_eq_true_eq] at before after ⊢
    exact Nat.lt_trans before after

theorem textLe_eq_lexLe :
    textLe = lexLe fun first second : Char => decide (first.toNat < second.toNat) := by
  funext first second
  induction first generalizing second with
  | nil => rfl
  | cons head rest ih =>
      cases second with
      | nil => rfl
      | cons other others => rw [textLe, lexLe, ih]

theorem componentsLe_eq_lexLe : componentsLe = lexLe Component.le := by
  funext first second
  induction first generalizing second with
  | nil => rfl
  | cons head rest ih =>
      cases second with
      | nil => rfl
      | cons other others => rw [componentsLe, lexLe, ih]

theorem ordersDistinct_component : OrdersDistinct Component.le where
  antisymm := by
    intro first second before after
    cases first <;> cases second
    case name.name first second =>
      rw [Component.le, textLe_eq_lexLe] at before after
      rw [ordersDistinct_char.lexLe_antisymm before after]
    all_goals first
      | rfl
      | exact absurd before Bool.false_ne_true
      | exact absurd after Bool.false_ne_true
  total := by
    intro first second apart
    cases first <;> cases second
    case name.name first second =>
      simp only [Component.le, textLe_eq_lexLe]
      exact ordersDistinct_char.lexLe_total first second
    all_goals first
      | exact .inl rfl
      | exact .inr rfl
  trans := by
    intro first second third before after
    cases first <;> cases second <;> cases third
    case name.name.name first second third =>
      rw [Component.le, textLe_eq_lexLe] at before after ⊢
      exact ordersDistinct_char.lexLe_trans before after
    all_goals first
      | rfl
      | exact absurd before Bool.false_ne_true
      | exact absurd after Bool.false_ne_true

theorem componentsLe_antisymm {first second : List Component}
    (before : componentsLe first second = true) (after : componentsLe second first = true) :
    first = second := by
  rw [componentsLe_eq_lexLe] at before after
  exact ordersDistinct_component.lexLe_antisymm before after

theorem pairwise_mergeSort_components {α : Type} (items : List (List Component × α)) :
    (items.mergeSort fun first second => componentsLe first.1 second.1).Pairwise
      fun first second => componentsLe first.1 second.1 := by
  apply List.pairwise_mergeSort
  · intro first second third
    simp only [componentsLe_eq_lexLe]
    exact ordersDistinct_component.lexLe_trans
  · intro first second
    simp only [componentsLe_eq_lexLe, Bool.or_eq_true]
    exact ordersDistinct_component.lexLe_total _ _

end Path

/-! ## Sorting without repetitions -/

section Repetitions

variable {α β : Type} {key : α → β} {le : β → β → Prop} [DecidableEq β]

/-- In a sorted list equal keys stand beside each other, so no key is left twice. -/
theorem exists_eraseRepsBy_loop_eq (antisymm : ∀ {a b : β}, le a b → le b a → a = b) {first : α}
    {rest : List α} (sorted : (first :: rest).Pairwise fun a b => le (key a) (key b)) :
    ∃ kept, kept.Sublist rest ∧ (first :: kept).Pairwise (fun a b => key a ≠ key b) ∧
      ∀ done, List.eraseRepsBy.loop (fun a b => decide (key a = key b)) first rest done =
        done.reverse ++ first :: kept := by
  induction rest generalizing first with
  | nil =>
      refine ⟨[], List.Sublist.slnil, List.pairwise_singleton _ _, fun done => ?_⟩
      simp [List.eraseRepsBy.loop]
  | cons next rest ih =>
      obtain ⟨fromFirst, later⟩ := List.pairwise_cons.mp sorted
      by_cases same : key first = key next
      · obtain ⟨kept, among, apart, looped⟩ :=
          ih (sorted.sublist ((List.sublist_cons_self next rest).cons_cons first))
        refine ⟨kept, among.cons next, apart, fun done => ?_⟩
        rw [List.eraseRepsBy.loop, decide_eq_true same]
        exact looped done
      · obtain ⟨kept, among, apart, looped⟩ := ih later
        refine ⟨next :: kept, among.cons_cons next, ?_, fun done => ?_⟩
        · refine List.pairwise_cons.mpr ⟨fun other member equal => ?_, apart⟩
          rcases List.mem_cons.mp member with rfl | member
          · exact same equal
          · have onward := (List.pairwise_cons.mp later).1 other (among.subset member)
            exact same (antisymm (fromFirst next List.mem_cons_self) (equal ▸ onward))
        · rw [List.eraseRepsBy.loop, decide_eq_false same]
          simp [looped]

theorem pairwise_eraseRepsBy (antisymm : ∀ {a b : β}, le a b → le b a → a = b) {items : List α}
    (sorted : items.Pairwise fun a b => le (key a) (key b)) :
    (items.eraseRepsBy fun a b => decide (key a = key b)).Sublist items ∧
      (items.eraseRepsBy fun a b => decide (key a = key b)).Pairwise
        fun a b => key a ≠ key b := by
  cases items with
  | nil => exact ⟨List.Sublist.slnil, List.Pairwise.nil⟩
  | cons first rest =>
      obtain ⟨kept, among, apart, looped⟩ := exists_eraseRepsBy_loop_eq antisymm sorted
      rw [List.eraseRepsBy, looped, List.reverse_nil, List.nil_append]
      exact ⟨among.cons_cons first, apart⟩

theorem exists_mem_eraseRepsBy_loop (key : α → β) {first item : α} {rest done : List α}
    (member : item ∈ done ∨ item ∈ first :: rest) :
    ∃ kept ∈ List.eraseRepsBy.loop (fun a b => decide (key a = key b)) first rest done,
      key kept = key item := by
  induction rest generalizing first item done with
  | nil =>
      have inside : item ∈ (first :: done).reverse := by simpa [or_comm] using member
      exact ⟨item, inside, rfl⟩
  | cons next rest ih =>
      rw [List.eraseRepsBy.loop]
      by_cases same : key first = key next
      · -- The item that is left out has the key of the one before it.
        rw [decide_eq_true same]
        rcases member with isDone | member
        · exact ih (.inl isDone)
        rcases List.mem_cons.mp member with rfl | member
        · exact ih (.inr List.mem_cons_self)
        rcases List.mem_cons.mp member with rfl | member
        · rw [← same]
          exact ih (.inr List.mem_cons_self)
        · exact ih (.inr (List.mem_cons_of_mem first member))
      · rw [decide_eq_false same]
        refine ih ?_
        rcases member with isDone | member
        · exact .inl (List.mem_cons_of_mem first isDone)
        rcases List.mem_cons.mp member with rfl | member
        · exact .inl List.mem_cons_self
        · exact .inr member

/-- Where repetitions are left out, each key is there still. -/
theorem exists_mem_eraseRepsBy (key : α → β) {items : List α} {item : α} (member : item ∈ items) :
    ∃ kept ∈ items.eraseRepsBy fun a b => decide (key a = key b), key kept = key item := by
  cases items with
  | nil => cases member
  | cons first rest => exact exists_mem_eraseRepsBy_loop key (.inr member)

/-- Nothing is repeated in a list without equal keys. -/
theorem eraseRepsBy_eq_self {items : List α} (apart : items.Pairwise fun a b => key a ≠ key b) :
    (items.eraseRepsBy fun a b => decide (key a = key b)) = items := by
  have looped {first : α} {rest : List α} (done : List α)
      (apart : (first :: rest).Pairwise fun a b => key a ≠ key b) :
      List.eraseRepsBy.loop (fun a b => decide (key a = key b)) first rest done =
        done.reverse ++ first :: rest := by
    induction rest generalizing first done with
    | nil => simp [List.eraseRepsBy.loop]
    | cons next rest ih =>
        obtain ⟨fromFirst, later⟩ := List.pairwise_cons.mp apart
        rw [List.eraseRepsBy.loop, decide_eq_false (fromFirst next List.mem_cons_self)]
        simp [ih (first :: done) later]
  cases items with
  | nil => rfl
  | cons first rest => exact looped [] apart

end Repetitions

/-! ## Paths in order -/

namespace Discovery

theorem eq_of_mem_sorted {paths : List Path} {pair : List Path.Component × Path}
    (member : pair ∈ (paths.map fun path => (path.components, path)).mergeSort
      fun first second => Path.componentsLe first.1 second.1) :
    pair.1 = pair.2.components ∧ pair.2 ∈ paths := by
  obtain ⟨path, isPath, rfl⟩ := List.mem_map.mp (List.mem_mergeSort.mp member)
  exact ⟨rfl, isPath⟩

/-- **Paths in order are among those that were to be ordered, and each comes before the next.** -/
theorem inOrder_subset_and_increasing (paths : List Path) :
    inOrder paths ⊆ paths ∧
      (inOrder paths).Pairwise fun first second =>
        Path.componentsLe first.components second.components ∧
          first.components ≠ second.components := by
  have sorted := Path.pairwise_mergeSort_components (paths.map fun path => (path.components, path))
  obtain ⟨among, apart⟩ := pairwise_eraseRepsBy Path.componentsLe_antisymm sorted
  constructor
  · intro path member
    obtain ⟨pair, isPair, rfl⟩ := List.mem_map.mp member
    exact (eq_of_mem_sorted (among.subset isPair)).2
  · refine List.pairwise_map.mpr (((sorted.sublist among).and apart).imp_of_mem ?_)
    intro first second isFirst isSecond increasing
    rwa [← (eq_of_mem_sorted (among.subset isFirst)).1,
      ← (eq_of_mem_sorted (among.subset isSecond)).1]

/-- The components of each path that is to be ordered are there still. -/
theorem exists_mem_inOrder {paths : List Path} {path : Path} (member : path ∈ paths) :
    ∃ other ∈ inOrder paths, other.components = path.components := by
  have sorted := Path.pairwise_mergeSort_components (paths.map fun path => (path.components, path))
  have isKeyed : (path.components, path) ∈
      (paths.map fun path => (path.components, path)).mergeSort
        fun first second => Path.componentsLe first.1 second.1 :=
    List.mem_mergeSort.mpr (List.mem_map_of_mem member)
  obtain ⟨kept, isKept, same⟩ := exists_mem_eraseRepsBy Prod.fst isKeyed
  obtain ⟨among, _⟩ := pairwise_eraseRepsBy Path.componentsLe_antisymm sorted
  refine ⟨kept.2, List.mem_map_of_mem isKept, ?_⟩
  rw [← (eq_of_mem_sorted (among.subset isKept)).1, same]

/-- Paths that are in order already stay as they are. -/
theorem inOrder_eq_self {paths : List Path}
    (ordered : paths.Pairwise fun first second =>
      Path.componentsLe first.components second.components ∧
        first.components ≠ second.components) :
    inOrder paths = paths := by
  have sorted : (paths.map fun path => (path.components, path)).Pairwise
      fun first second => Path.componentsLe first.1 second.1 :=
    List.pairwise_map.mpr (ordered.imp And.left)
  have apart : (paths.map fun path => (path.components, path)).Pairwise
      fun first second => first.1 ≠ second.1 :=
    List.pairwise_map.mpr (ordered.imp And.right)
  rw [inOrder, List.mergeSort_of_pairwise sorted, eraseRepsBy_eq_self apart, List.map_map]
  exact List.map_id paths

end Discovery

end ComponentTsx
