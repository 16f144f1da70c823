import ComponentTsx.Proofs.Path.Location

/-!
# Components of joined and stripped paths

Joining a path to an absolute base puts its components behind those of the base,
and stripping the base off takes them away again; a path that does not begin with
the components of the base cannot be stripped (`strip?_eq_none_iff`).  Separators
and points in the text make no difference to that.  A path that is resolved
against a base loses the point at its beginning (`components_resolve`).
-/

namespace ComponentTsx.Path

set_option autoImplicit false

theorem innerComponents_append (first second : List Text) :
    innerComponents (first ++ second) = innerComponents first ++ innerComponents second := by
  simp [innerComponents]

theorem innerComponents_cons_of_isVoid {segment : Text} (void : isVoid segment)
    (rest : List Text) : innerComponents (segment :: rest) = innerComponents rest := by
  simp [innerComponents, void]

theorem innerComponents_cons {segment : Text} (notVoid : ¬ isVoid segment) (rest : List Text) :
    innerComponents (segment :: rest) = stepOf segment :: innerComponents rest := by
  simp [innerComponents, notVoid]

theorem innerComponents_eq_nil_iff {segments : List Text} :
    innerComponents segments = [] ↔ ∀ segment ∈ segments, isVoid segment := by
  simp [innerComponents]

theorem innerComponents_dropWhile (segments : List Text) :
    innerComponents (segments.dropWhile isVoid) = innerComponents segments := by
  induction segments with
  | nil => rfl
  | cons segment rest ih =>
      by_cases void : isVoid segment
      · rw [List.dropWhile_cons_of_pos void, ih, innerComponents_cons_of_isVoid void]
      · rw [List.dropWhile_cons_of_neg void]

theorem innerComponents_trimVoid (segments : List Text) :
    innerComponents (trimVoid segments) = innerComponents segments := by
  have cut (texts : List Text) :
      innerComponents (texts.rdropWhile isVoid) = innerComponents texts := by
    conv_rhs => rw [← List.rdropWhile_append_rtakeWhile (p := isVoid) (l := texts)]
    have void : innerComponents (texts.rtakeWhile isVoid) = [] :=
      innerComponents_eq_nil_iff.mpr fun segment member => List.mem_rtakeWhile_imp member
    rw [innerComponents_append, void, List.append_nil]
  rw [trimVoid_eq, cut, innerComponents_dropWhile]

/-- A step inside a path leads up or has a name. -/
theorem mem_innerComponents {segments : List Text} {component : Component}
    (member : component ∈ innerComponents segments) :
    component = .parent ∨ ∃ label, component = .name label := by
  obtain ⟨segment, _, rfl⟩ := List.mem_map.mp member
  unfold stepOf
  split
  · exact .inl rfl
  · exact .inr ⟨segment, rfl⟩

theorem filter_innerComponents (segments : List Text) :
    (innerComponents segments).filter (· ≠ .current) = innerComponents segments := by
  refine List.filter_eq_self.mpr fun component member => decide_eq_true ?_
  rcases mem_innerComponents member with rfl | ⟨label, rfl⟩ <;> exact nofun

theorem components_of_not_isAbsolute {path : Path} (relative : ¬ path.isAbsolute) :
    path.components = .current :: innerComponents path.segments ∨
      path.components = innerComponents path.segments := by
  obtain ⟨first, rest, whole⟩ := List.exists_cons_of_ne_nil (segments_ne_nil path)
  rw [components, whole]
  simp only [if_neg relative]
  split
  · rename_i isPoint
    have void : isVoid first := by
      rw [isPoint]
      rfl
    exact .inl (by rw [innerComponents_cons_of_isVoid void])
  · exact .inr rfl

/-- The components of a relative path, but for a point at its beginning. -/
theorem filter_components {path : Path} (relative : ¬ path.isAbsolute) :
    path.components.filter (· ≠ .current) = innerComponents path.segments := by
  rcases components_of_not_isAbsolute relative with pointed | plain
  · rw [pointed, List.filter_cons_of_neg (by decide), filter_innerComponents]
  · rw [plain, filter_innerComponents]

theorem root_notMem_components {path : Path} (relative : ¬ path.isAbsolute) :
    .root ∉ path.components := by
  intro member
  have inside : .root ∈ path.components.filter (· ≠ .current) :=
    List.mem_filter.mpr ⟨member, by decide⟩
  rw [filter_components relative] at inside
  rcases mem_innerComponents inside with isParent | ⟨label, isName⟩
  · cases isParent
  · cases isName

/-! ## Joining -/

theorem components_join {base path : Path} (absolute : base.isAbsolute)
    (relative : ¬ path.isAbsolute) :
    (join base path).components = base.components ++ innerComponents path.segments := by
  obtain ⟨before, whole, same⟩ := exists_segments_join base relative
  obtain ⟨rest, baseSegments, nonempty⟩ := isAbsolute_iff.mp absolute
  have inner : innerComponents base.segments.tail = innerComponents before.tail ∧ before ≠ [] := by
    rcases same with same | same
    · exact ⟨by rw [same], by rw [← same, baseSegments]; exact List.cons_ne_nil [] rest⟩
    · have notNil : before ≠ [] := by
        rintro rfl
        rw [baseSegments] at same
        exact nonempty (List.cons.inj same).2
      refine ⟨?_, notNil⟩
      rw [same, List.tail_append_of_ne_nil notNil, innerComponents_append]
      exact List.append_nil _
  rw [components_of_isAbsolute (isAbsolute_join absolute path), components_of_isAbsolute absolute,
    whole, List.tail_append_of_ne_nil inner.2, innerComponents_append, inner.1, List.cons_append]

/-! ## Stripping -/

theorem mem_of_mem_trimVoid {segments : List Text} {segment : Text}
    (member : segment ∈ trimVoid segments) : segment ∈ segments := by
  rw [trimVoid_eq] at member
  have kept := (List.rdropWhile_prefix isVoid (segments.dropWhile isVoid)).subset member
  exact (List.dropWhile_sublist isVoid).subset kept

theorem not_isVoid_of_trimVoid {segments rest : List Text} {first : Text}
    (trimmed : trimVoid segments = first :: rest) : ¬ isVoid first := by
  obtain ⟨more, whole⟩ := List.rdropWhile_prefix isVoid (segments.dropWhile isVoid)
  rw [← trimVoid_eq, trimmed, List.cons_append] at whole
  have fails := List.head?_dropWhile_not isVoid segments
  rw [← whole] at fails
  simpa using fails

/-- The path of some segments, without the void ones at the ends, is relative. -/
theorem components_ofSegments_trimVoid {segments : List Text}
    (noSlash : ∀ segment ∈ segments, '/' ∉ segment) :
    ¬ isAbsolute (ofSegments (trimVoid segments)) ∧
      (ofSegments (trimVoid segments)).components = innerComponents segments := by
  rw [← innerComponents_trimVoid segments]
  cases trimmed : trimVoid segments with
  | nil => exact ⟨by decide, by decide⟩
  | cons first rest =>
      have notVoid := not_isVoid_of_trimVoid trimmed
      have split : (ofSegments (first :: rest)).segments = first :: rest := by
        rw [← trimmed]
        refine segments_ofSegments (fun segment member => ?_) (by simp [trimmed])
        exact noSlash segment (mem_of_mem_trimVoid member)
      have relative : ¬ isAbsolute (ofSegments (first :: rest)) := by
        intro absolute
        obtain ⟨_, begins, _⟩ := isAbsolute_iff.mp absolute
        rw [split] at begins
        exact notVoid ((List.cons.inj begins).1 ▸ rfl)
      have noPoint : first ≠ ['.'] := by
        rintro rfl
        exact notVoid rfl
      refine ⟨relative, ?_⟩
      rw [components, split]
      simp only [if_neg relative, if_neg noPoint]

/-- What follows some components are the components behind them. -/
theorem innerComponents_of_afterComponents? {segments remaining : List Text}
    {components : List Component}
    (follows : afterComponents? segments components = some remaining) :
    innerComponents segments = components ++ innerComponents remaining := by
  induction components generalizing segments with
  | nil =>
      cases follows
      rfl
  | cons component rest ih =>
      rw [afterComponents?] at follows
      rw [← innerComponents_dropWhile]
      split at follows
      · cases follows
      · rename_i first others kept
        split at follows
        · rename_i same
          have notVoid : ¬ isVoid first := by
            have fails := List.head?_dropWhile_not isVoid segments
            rw [kept] at fails
            simpa using fails
          rw [kept, innerComponents_cons notVoid, same, ih follows, List.cons_append]
        · cases follows

/-- Nothing follows components that the segments do not begin with. -/
theorem not_prefix_of_afterComponents? {segments : List Text} {components : List Component}
    (none : afterComponents? segments components = none) :
    ¬ components <+: innerComponents segments := by
  induction components generalizing segments with
  | nil => cases none
  | cons component rest ih =>
      rw [afterComponents?] at none
      rw [← innerComponents_dropWhile]
      split at none
      · rename_i allVoid
        rw [allVoid]
        exact fun begins => List.cons_ne_nil component rest (List.prefix_nil.mp begins)
      · rename_i first others kept
        have notVoid : ¬ isVoid first := by
          have fails := List.head?_dropWhile_not isVoid segments
          rw [kept] at fails
          simpa using fails
        rw [kept, innerComponents_cons notVoid, List.cons_prefix_cons]
        rintro ⟨same, begins⟩
        rw [if_pos same.symm] at none
        exact ih none begins

/-- **What is left of a path without a base has the components behind those of the base.** -/
theorem components_of_strip? {base path rest : Path} (absolute : base.isAbsolute)
    (stripped : strip? base path = some rest) :
    path.components = base.components ++ rest.components := by
  rw [strip?, components_of_isAbsolute absolute] at stripped
  obtain ⟨segments, first, stripped⟩ := Option.bind_eq_some_iff.mp stripped
  obtain ⟨remaining, follows, result⟩ := Option.bind_eq_some_iff.mp stripped
  rw [afterFirst?] at first
  split at first
  · rename_i pathAbsolute
    cases first
    cases result
    obtain ⟨suffix, -⟩ := suffix_of_afterComponents? follows []
    have noSlash : ∀ segment ∈ remaining, '/' ∉ segment := fun segment member =>
      notMem_of_mem_segments (List.mem_of_mem_tail (suffix.subset member))
    rw [components_of_isAbsolute pathAbsolute, components_of_isAbsolute absolute,
      innerComponents_of_afterComponents? follows, (components_ofSegments_trimVoid noSlash).2,
      List.cons_append]
  · cases first

/-- **An absolute base is not stripped exactly from the paths that do not begin with it.** -/
theorem strip?_eq_none_iff {base path : Path} (absolute : base.isAbsolute) :
    strip? base path = none ↔ ¬ base.components <+: path.components := by
  constructor
  · intro none begins
    rw [strip?, components_of_isAbsolute absolute] at none
    simp only [afterFirst?] at none
    rw [components_of_isAbsolute absolute] at begins
    split at none
    · rename_i pathAbsolute
      rw [components_of_isAbsolute pathAbsolute, List.cons_prefix_cons] at begins
      cases follows : afterComponents? path.segments.tail (innerComponents base.segments.tail) with
      | none => exact not_prefix_of_afterComponents? follows begins.2
      | some remaining =>
          simp [follows] at none
    · rename_i relative
      exact root_notMem_components relative (begins.subset List.mem_cons_self)
  · intro notBegins
    cases stripped : strip? base path with
    | none => rfl
    | some rest =>
        have whole := components_of_strip? absolute stripped
        exact absurd ⟨rest.components, whole.symm⟩ notBegins

/-- A path is seen from a base by the components that follow those of the base, if they do. -/
theorem components_relativeTo {base : Path} (absolute : base.isAbsolute) (path : Path) :
    (base.components <+: path.components →
        path.components = base.components ++ (relativeTo base path).components) ∧
      (¬ base.components <+: path.components → relativeTo base path = path) := by
  rw [relativeTo]
  cases stripped : strip? base path with
  | none =>
      exact ⟨fun begins => absurd begins ((strip?_eq_none_iff absolute).mp stripped), fun _ => rfl⟩
  | some rest =>
      have whole := components_of_strip? absolute stripped
      exact ⟨fun _ => whole, fun notBegins => absurd ⟨_, whole.symm⟩ notBegins⟩

/-! ## Resolving -/

theorem relativeTo_point (path : Path) :
    relativeTo ['.'] path =
      if path.segments.head? = some ['.'] then ofSegments (trimVoid path.segments.tail)
      else path := by
  have point : components ['.'] = [.current] := by decide
  rw [relativeTo, strip?, point]
  simp only [afterFirst?]
  split <;> rfl

/-- An absolute path stands for itself, and a point at the beginning of another is dropped. -/
theorem components_resolve {base : Path} (absolute : base.isAbsolute) (path : Path) :
    (resolve base path).components =
      if path.isAbsolute then path.components
      else base.components ++ path.components.filter (· ≠ .current) := by
  have joined (rest : Path) (relative : ¬ rest.isAbsolute) :
      (if rest.isEmpty then base else join base rest).components =
        base.components ++ rest.components.filter (· ≠ .current) := by
    split
    · rename_i empty
      rw [List.isEmpty_iff.mp empty]
      exact (List.append_nil _).symm
    · rw [components_join absolute relative, filter_components relative]
  rw [resolve, relativeTo_point]
  by_cases pointed : path.segments.head? = some ['.']
  · obtain ⟨rest, whole⟩ := List.head?_eq_some_iff.mp pointed
    have relative : ¬ path.isAbsolute := by
      intro isAbsolute
      obtain ⟨_, begins, _⟩ := isAbsolute_iff.mp isAbsolute
      rw [whole] at begins
      cases begins
    have noSlash : ∀ segment ∈ path.segments.tail, '/' ∉ segment := fun segment member =>
      notMem_of_mem_segments (List.mem_of_mem_tail member)
    obtain ⟨restRelative, restComponents⟩ := components_ofSegments_trimVoid noSlash
    simp only [if_pos pointed]
    rw [if_neg relative, joined _ restRelative, restComponents, filter_components relative,
      filter_innerComponents, whole, innerComponents_cons_of_isVoid rfl, List.tail_cons]
  · simp only [if_neg pointed]
    by_cases isAbsolute : path.isAbsolute
    · have nonempty : ¬ path.isEmpty := by
        rintro empty
        rw [List.isEmpty_iff.mp empty] at isAbsolute
        cases isAbsolute
      rw [if_pos isAbsolute, if_neg nonempty, join, if_pos isAbsolute]
    · rw [if_neg isAbsolute, joined path isAbsolute]

end ComponentTsx.Path
