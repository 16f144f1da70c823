import ComponentTsx.FileSystem
import Mathlib.Data.List.DropRight

/-!
# Locations that paths name

As there are no links, a path names one location, whatever exists: a name steps
down and two points step up (`Path.location`).  A path that is joined to a base
leads on from where the base leads (`exists_locationFrom_join`), and what follows a
base in a path leads from the base to where the path leads
(`location_of_strip?`).  Absolute paths without steps up that name one location
have the same components (`components_eq_of_location_eq`).
-/

namespace ComponentTsx.Path

set_option autoImplicit false

/-! ## Segments -/

theorem segments_eq_splitOn (path : Path) : path.segments = path.splitOn '/' := by
  induction path with
  | nil => rfl
  | cons char rest ih =>
      rw [segments, List.splitOn_cons_eq_if_modifyHead, ih]
      by_cases isSlash : char = '/'
      · simp [isSlash]
      · rw [if_neg isSlash, if_neg (by simpa using isSlash)]
        obtain ⟨first, others, whole⟩ := List.exists_cons_of_ne_nil (List.splitOn_ne_nil '/' rest)
        rw [whole]
        rfl

theorem segments_ne_nil (path : Path) : path.segments ≠ [] := by
  rw [segments_eq_splitOn]
  exact List.splitOn_ne_nil '/' path

theorem segments_append (first second : Path) :
    segments (first ++ '/' :: second) = first.segments ++ second.segments := by
  simp only [segments_eq_splitOn]
  exact List.splitOn_append_cons_self first second

theorem segments_of_notMem {text : Text} (noSlash : '/' ∉ text) : segments text = [text] := by
  rw [segments_eq_splitOn]
  exact List.splitOn_eq_singleton noSlash

theorem segments_ofSegments {texts : List Text} (noSlash : ∀ text ∈ texts, '/' ∉ text)
    (nonempty : texts ≠ []) : segments (ofSegments texts) = texts := by
  rw [segments_eq_splitOn]
  exact List.splitOn_intercalate '/' noSlash nonempty

theorem notMem_of_mem_segments {path : Path} {segment : Text} (member : segment ∈ path.segments) :
    '/' ∉ segment := by
  induction path generalizing segment with
  | nil =>
      rw [List.mem_singleton.mp member]
      exact List.not_mem_nil
  | cons char rest ih =>
      rw [segments] at member
      split at member
      · rcases List.mem_cons.mp member with rfl | later
        · exact List.not_mem_nil
        · exact ih later
      · rename_i noSlash
        obtain ⟨first, others, whole⟩ := List.exists_cons_of_ne_nil (segments_ne_nil rest)
        rw [whole] at member ih
        rcases List.mem_cons.mp member with rfl | later
        · intro inside
          rcases List.mem_cons.mp inside with isSlash | inFirst
          · exact noSlash isSlash.symm
          · exact ih List.mem_cons_self inFirst
        · exact ih (List.mem_cons_of_mem first later)

/-- The last segment of a path is what a suffix without separators is appended to. -/
theorem exists_segments_append (path : Path) :
    ∃ before last, path.segments = before ++ [last] ∧
      ∀ suffix : Text, '/' ∉ suffix → segments (path ++ suffix) = before ++ [last ++ suffix] := by
  by_cases slash : '/' ∈ path
  · obtain ⟨rest, first, whole, noSlash⟩ :=
      List.eq_append_cons_of_mem (List.mem_reverse.mpr slash)
    have split : path = first.reverse ++ '/' :: rest.reverse := by
      rw [← List.reverse_reverse path, whole]
      simp
    rw [List.mem_reverse.symm] at noSlash
    refine ⟨segments first.reverse, rest.reverse, ?_, fun suffix inSuffix => ?_⟩
    · rw [split, segments_append, segments_of_notMem noSlash]
    · have later : '/' ∉ rest.reverse ++ suffix := fun inside =>
        (List.mem_append.mp inside).elim noSlash inSuffix
      rw [split, List.append_assoc, List.cons_append, segments_append, segments_of_notMem later]
  · refine ⟨[], path, segments_of_notMem slash, fun suffix inSuffix => ?_⟩
    exact segments_of_notMem fun inside => (List.mem_append.mp inside).elim slash inSuffix

theorem segments_append_of_eq {path : Path} {before : List Text} {last suffix : Text}
    (whole : path.segments = before ++ [last]) (noSlash : '/' ∉ suffix) :
    segments (path ++ suffix) = before ++ [last ++ suffix] := by
  obtain ⟨earlier, segment, split, append⟩ := exists_segments_append path
  obtain ⟨rfl, same⟩ := List.append_inj' (whole.symm.trans split) rfl
  rw [append suffix noSlash, (List.cons.inj same).1]

theorem isAbsolute_iff {path : Path} :
    path.isAbsolute = true ↔ ∃ rest, path.segments = [] :: rest ∧ rest ≠ [] := by
  rw [isAbsolute, decide_eq_true_eq]
  cases path with
  | nil => simp [segments]
  | cons char rest =>
      rw [segments, List.head?_cons, Option.some_inj]
      split
      · rename_i isSlash
        exact iff_of_true isSlash ⟨_, rfl, segments_ne_nil rest⟩
      · rename_i noSlash
        refine iff_of_false noSlash ?_
        rintro ⟨others, whole, _⟩
        split at whole <;> cases whole

/-! ## Locations -/

/-- Where a segment leads from a location. -/
def advance (location : Location) (segment : Text) : Location :=
  if isVoid segment then location
  else if segment = ['.', '.'] then location.dropLast
  else location ++ [segment]

/-- Where some segments lead from a location. -/
def locationFrom (start : Location) (segments : List Text) : Location :=
  segments.foldl advance start

/-- The location that a path names. -/
def location (path : Path) : Location := locationFrom [] path.segments

/-- Whether a segment is the name of a directory or a file. -/
def isName (segment : Text) : Bool := !isVoid segment && segment ≠ ['.', '.']

theorem not_isVoid_of_isName {segment : Text} (named : isName segment) : ¬ isVoid segment := by
  rw [isName, Bool.and_eq_true, Bool.not_eq_true'] at named
  rw [named.1]
  exact Bool.false_ne_true

theorem advance_of_isVoid {segment : Text} (void : isVoid segment) (start : Location) :
    advance start segment = start := if_pos void

theorem advance_of_isName {segment : Text} (named : isName segment) (start : Location) :
    advance start segment = start ++ [segment] := by
  rw [isName, Bool.and_eq_true, decide_eq_true_eq] at named
  rw [advance, if_neg (by simpa using named.1), if_neg named.2]

@[simp] theorem locationFrom_nil (start : Location) : locationFrom start [] = start := rfl

@[simp] theorem locationFrom_cons (start : Location) (segment : Text) (rest : List Text) :
    locationFrom start (segment :: rest) = locationFrom (advance start segment) rest := rfl

theorem locationFrom_append (start : Location) (first second : List Text) :
    locationFrom start (first ++ second) = locationFrom (locationFrom start first) second :=
  List.foldl_append

theorem locationFrom_of_forall_isVoid {segments : List Text}
    (void : ∀ segment ∈ segments, isVoid segment) (start : Location) :
    locationFrom start segments = start := by
  induction segments with
  | nil => rfl
  | cons segment rest ih =>
      obtain ⟨first, others⟩ := List.forall_mem_cons.mp void
      rw [locationFrom_cons, advance_of_isVoid first, ih others]

theorem locationFrom_dropWhile (start : Location) (segments : List Text) :
    locationFrom start (segments.dropWhile isVoid) = locationFrom start segments := by
  conv_rhs => rw [← List.takeWhile_append_dropWhile (p := isVoid) (l := segments)]
  rw [locationFrom_append,
    locationFrom_of_forall_isVoid fun segment member => List.mem_takeWhile_imp member]

theorem trimVoid_eq (segments : List Text) :
    trimVoid segments = (segments.dropWhile isVoid).rdropWhile isVoid := rfl

theorem locationFrom_trimVoid (start : Location) (segments : List Text) :
    locationFrom start (trimVoid segments) = locationFrom start segments := by
  rw [trimVoid_eq, ← locationFrom_dropWhile start segments]
  conv_rhs =>
    rw [← List.rdropWhile_append_rtakeWhile (p := isVoid) (l := segments.dropWhile isVoid)]
  rw [locationFrom_append,
    locationFrom_of_forall_isVoid fun segment member => List.mem_rtakeWhile_imp member]

/-! ## Joined paths -/

theorem isAbsolute_join {base : Path} (absolute : base.isAbsolute) (path : Path) :
    (join base path).isAbsolute := by
  unfold join
  split
  · assumption
  · rw [isAbsolute, decide_eq_true_eq] at absolute ⊢
    split <;> simp [absolute]

/-- The segments of a relative path follow those of the base, but for an empty last one. -/
theorem exists_segments_join (base : Path) {path : Path} (relative : ¬ path.isAbsolute) :
    ∃ before, (join base path).segments = before ++ path.segments ∧
      (base.segments = before ∨ base.segments = before ++ [[]]) := by
  rw [join, if_neg relative]
  split
  · rename_i ends
    rcases List.eq_nil_or_concat base with rfl | ⟨outer, last, rfl⟩
    · exact ⟨[], rfl, .inr rfl⟩
    · obtain rfl : last = '/' := by simpa using ends
      refine ⟨segments outer, ?_, .inr ?_⟩
      · rw [List.concat_eq_append, List.append_assoc]
        exact segments_append outer path
      · rw [List.concat_eq_append]
        exact segments_append outer []
  · refine ⟨base.segments, ?_, .inl rfl⟩
    rw [List.append_assoc]
    exact segments_append base path

/-- A relative path that is joined to a base leads on from where the base leads. -/
theorem exists_locationFrom_join (base : Path) {path : Path} (relative : ¬ path.isAbsolute) :
    ∃ before, (join base path).segments = before ++ path.segments ∧
      ∀ start, locationFrom start before = locationFrom start base.segments := by
  obtain ⟨before, whole, same | same⟩ := exists_segments_join base relative
  · exact ⟨before, whole, fun start => same ▸ rfl⟩
  · refine ⟨before, whole, fun start => ?_⟩
    have void : isVoid [] = true := rfl
    rw [same, locationFrom_append]
    exact (advance_of_isVoid void _).symm

/-! ## Components -/

/-- Where a component leads from a location. -/
def Component.advance (location : Location) : Component → Location
  | .root => []
  | .current => location
  | .parent => location.dropLast
  | .name label => location ++ [label]

theorem advance_stepOf {segment : Text} (notVoid : ¬ isVoid segment) (start : Location) :
    Component.advance start (stepOf segment) = Path.advance start segment := by
  rw [Path.advance, if_neg notVoid, stepOf]
  split <;> rfl

theorem locationFrom_eq_foldl (start : Location) (segments : List Text) :
    locationFrom start segments = (innerComponents segments).foldl Component.advance start := by
  induction segments generalizing start with
  | nil => rfl
  | cons segment rest ih =>
      rw [locationFrom_cons, innerComponents]
      by_cases void : isVoid segment
      · rw [advance_of_isVoid void, ih, List.filter_cons_of_neg (by simpa using void)]
        rfl
      · rw [List.filter_cons_of_pos (by simpa using void), List.map_cons, List.foldl_cons,
          advance_stepOf void, ih]
        rfl

theorem components_of_isAbsolute {path : Path} (absolute : path.isAbsolute) :
    path.components = .root :: innerComponents path.segments.tail := by
  obtain ⟨rest, whole, _⟩ := isAbsolute_iff.mp absolute
  rw [components, whole]
  simp only [if_pos absolute, List.tail_cons]

theorem location_of_isAbsolute {path : Path} (absolute : path.isAbsolute) :
    path.location = locationFrom [] path.segments.tail := by
  obtain ⟨rest, whole, _⟩ := isAbsolute_iff.mp absolute
  rw [location, whole, List.tail_cons, locationFrom_cons, advance_of_isVoid rfl]

/-- Without steps up a location tells the names in a path. -/
theorem innerComponents_of_notMem {segments : List Text} (noStepUp : ['.', '.'] ∉ segments)
    (start : Location) :
    ∃ names, innerComponents segments = names.map .name ∧
      locationFrom start segments = start ++ names := by
  induction segments generalizing start with
  | nil => exact ⟨[], rfl, (List.append_nil start).symm⟩
  | cons segment rest ih =>
      obtain ⟨notHere, notLater⟩ := not_or.mp (mt List.mem_cons.mpr noStepUp)
      rw [innerComponents, locationFrom_cons]
      by_cases void : isVoid segment
      · rw [advance_of_isVoid void, List.filter_cons_of_neg (by simpa using void)]
        exact ih notLater start
      · obtain ⟨names, inner, leads⟩ := ih notLater (start ++ [segment])
        refine ⟨segment :: names, ?_, ?_⟩
        · rw [List.filter_cons_of_pos (by simpa using void), List.map_cons, stepOf,
            if_neg (Ne.symm notHere), List.map_cons, ← inner]
          rfl
        · rw [advance, if_neg void, if_neg (Ne.symm notHere), leads, List.append_assoc]
          rfl

/-- **Absolute paths that name one location without steps up have the same components.** -/
theorem components_eq_of_location_eq {first second : Path} (firstAbsolute : first.isAbsolute)
    (secondAbsolute : second.isAbsolute) (firstDown : ['.', '.'] ∉ first.segments)
    (secondDown : ['.', '.'] ∉ second.segments) (same : first.location = second.location) :
    first.components = second.components := by
  have down {path : Path} (noStepUp : ['.', '.'] ∉ path.segments) :
      ['.', '.'] ∉ path.segments.tail := mt List.mem_of_mem_tail noStepUp
  obtain ⟨names, inner, leads⟩ := innerComponents_of_notMem (down firstDown) []
  obtain ⟨others, otherInner, otherLeads⟩ := innerComponents_of_notMem (down secondDown) []
  rw [location_of_isAbsolute firstAbsolute, location_of_isAbsolute secondAbsolute, leads,
    otherLeads, List.nil_append, List.nil_append] at same
  rw [components_of_isAbsolute firstAbsolute, components_of_isAbsolute secondAbsolute, inner,
    otherInner, same]

/-! ## What follows a base -/

/-- The segments that follow some components lead on from where the components lead. -/
theorem suffix_of_afterComponents? {segments remaining : List Text} {components : List Component}
    (follows : afterComponents? segments components = some remaining) (start : Location) :
    remaining <:+ segments ∧ locationFrom start segments =
      locationFrom (components.foldl Component.advance start) remaining := by
  induction components generalizing segments start with
  | nil =>
      cases follows
      exact ⟨List.suffix_rfl, rfl⟩
  | cons component rest ih =>
      rw [afterComponents?] at follows
      rw [← locationFrom_dropWhile]
      cases kept : segments.dropWhile isVoid with
      | nil =>
          rw [kept] at follows
          cases follows
      | cons first others =>
          rw [kept] at follows
          by_cases same : stepOf first = component
          · have notVoid : ¬ isVoid first := by
              have fails := List.head?_dropWhile_not isVoid segments
              rw [kept] at fails
              simpa using fails
            simp only [if_pos same] at follows
            obtain ⟨suffix, leads⟩ := ih follows (advance start first)
            refine ⟨suffix.trans ?_, ?_⟩
            · exact (List.suffix_cons first others).trans (kept ▸ List.dropWhile_suffix isVoid)
            · rw [locationFrom_cons, leads, List.foldl_cons, ← same, advance_stepOf notVoid]
          · simp only [if_neg same] at follows
            cases follows

theorem exists_remaining_of_strip? {base path rest : Path} (absolute : base.isAbsolute)
    (stripped : strip? base path = some rest) :
    ∃ remaining, remaining <:+ path.segments ∧
      path.location = locationFrom base.location remaining ∧
      rest = ofSegments (trimVoid remaining) := by
  rw [strip?, components_of_isAbsolute absolute] at stripped
  obtain ⟨segments, first, stripped⟩ := Option.bind_eq_some_iff.mp stripped
  obtain ⟨remaining, follows, result⟩ := Option.bind_eq_some_iff.mp stripped
  rw [afterFirst?] at first
  split at first
  · rename_i pathAbsolute
    cases first
    obtain ⟨suffix, leads⟩ := suffix_of_afterComponents? follows []
    refine ⟨remaining, suffix.trans (List.tail_suffix _), ?_, (Option.some.inj result).symm⟩
    rw [location_of_isAbsolute pathAbsolute, leads, location_of_isAbsolute absolute,
      locationFrom_eq_foldl [] base.segments.tail]
  · cases first

/--
What follows a base in a path that ends with a name: nothing, if the path leads to the base, or a
relative path with the same last name that leads from the base to where the path leads.
-/
theorem strip?_cases {base path rest : Path} (absolute : base.isAbsolute) {before : List Text}
    {last : Text} (whole : path.segments = before ++ [last]) (named : isName last)
    (stripped : strip? base path = some rest) :
    rest = [] ∧ path.location = base.location ∨
      ¬ rest.isAbsolute ∧ ∃ inner, rest.segments = inner ++ [last] ∧
        path.location = locationFrom base.location (inner ++ [last]) := by
  obtain ⟨remaining, suffix, leads, rfl⟩ := exists_remaining_of_strip? absolute stripped
  have notVoid := not_isVoid_of_isName named
  rcases List.eq_nil_or_concat remaining with rfl | ⟨earlier, segment, rfl⟩
  · exact .inl ⟨rfl, leads⟩
  · rw [List.concat_eq_append] at suffix leads ⊢
    obtain rfl : segment = last := by
      obtain ⟨skipped, split⟩ := suffix
      rw [whole, ← List.append_assoc] at split
      exact (List.cons.inj (List.append_inj' split rfl).2).1
    have trimmed : trimVoid (earlier ++ [segment]) = earlier.dropWhile isVoid ++ [segment] := by
      rw [trimVoid_eq, List.dropWhile_append]
      split
      · rename_i allVoid
        rw [List.isEmpty_iff.mp allVoid, List.dropWhile_cons_of_neg notVoid]
        exact List.rdropWhile_concat_neg isVoid [] segment notVoid
      · exact List.rdropWhile_concat_neg isVoid _ segment notVoid
    have segments : (ofSegments (earlier.dropWhile isVoid ++ [segment])).segments =
        earlier.dropWhile isVoid ++ [segment] := by
      refine segments_ofSegments (fun text member => ?_) (by simp)
      refine notMem_of_mem_segments (suffix.subset ?_)
      refine (List.mem_append.mp member).elim (fun inside => ?_) (List.mem_append_right earlier)
      exact List.mem_append_left _ ((List.dropWhile_sublist isVoid).subset inside)
    rw [trimmed]
    refine .inr ⟨fun isAbsolute => ?_, _, segments, ?_⟩
    · -- An absolute path would begin with a void segment.
      obtain ⟨others, begins, _⟩ := isAbsolute_iff.mp isAbsolute
      rw [segments] at begins
      cases kept : earlier.dropWhile isVoid with
      | nil =>
          rw [kept] at begins
          exact notVoid ((List.cons.inj begins).1 ▸ rfl)
      | cons first later =>
          have fails := List.head?_dropWhile_not isVoid earlier
          rw [kept] at begins fails
          rw [(List.cons.inj begins).1] at fails
          cases fails
    · rw [leads, ← trimmed, locationFrom_trimVoid]

/-! ## Paths that stay below their base -/

/-- Whether segments that begin some names below a location lead above it nowhere. -/
def staysBelow (depth : Nat) : List Text → Bool
  | [] => true
  | segment :: rest =>
      if isVoid segment then staysBelow depth rest
      else if segment = ['.', '.'] then decide (0 < depth) && staysBelow (depth - 1) rest
      else staysBelow (depth + 1) rest

theorem staysBelow_of_append {depth : Nat} {first second : List Text}
    (stays : staysBelow depth (first ++ second)) : staysBelow depth first := by
  induction first generalizing depth with
  | nil => rfl
  | cons segment rest ih =>
      rw [List.cons_append, staysBelow] at stays
      rw [staysBelow]
      by_cases void : isVoid segment
      · rw [if_pos void] at stays ⊢
        exact ih stays
      · rw [if_neg void] at stays ⊢
        by_cases stepsUp : segment = ['.', '.']
        · rw [if_pos stepsUp, Bool.and_eq_true] at stays ⊢
          exact ⟨stays.1, ih stays.2⟩
        · rw [if_neg stepsUp] at stays ⊢
          exact ih stays

/-- Segments that stay below their base lead from any base to a location below it. -/
theorem locationFrom_of_staysBelow {names : Location} {segments : List Text}
    (stays : staysBelow names.length segments) (start : Location) :
    locationFrom (start ++ names) segments = start ++ locationFrom names segments := by
  induction segments generalizing names with
  | nil => rfl
  | cons segment rest ih =>
      rw [staysBelow] at stays
      rw [locationFrom_cons, locationFrom_cons, advance, advance]
      by_cases void : isVoid segment
      · rw [if_pos void] at stays
        rw [if_pos void, if_pos void, ih stays]
      · rw [if_neg void] at stays
        rw [if_neg void, if_neg void]
        by_cases stepsUp : segment = ['.', '.']
        · rw [if_pos stepsUp, Bool.and_eq_true, decide_eq_true_eq] at stays
          rw [if_pos stepsUp, if_pos stepsUp,
            List.dropLast_append_of_ne_nil (List.ne_nil_of_length_pos stays.1)]
          exact ih (by rw [List.length_dropLast]; exact stays.2)
        · rw [if_neg stepsUp] at stays
          rw [if_neg stepsUp, if_neg stepsUp, List.append_assoc]
          exact ih (by rw [List.length_append]; exact stays)

end ComponentTsx.Path
