import ComponentTsx.Proofs.Json.Reading
import ComponentTsx.Proofs.SourceMap.Segments
import ComponentTsx.Proofs.Text.Lines

/-!
# Reading an artifact back

A reader of revision 3 source maps takes the JSON text apart, then the mappings
at their semicolons and commas, and then each segment into its four numbers.  It
keeps count of the line, of the generated column, which begins anew on each line,
and of the source position (`SourceMap.Artifact.ofJson?`).

What is written of segments that are strictly in order is read back as the same
segments (`readMappings?_encodeSegments`).
-/

namespace ComponentTsx

set_option autoImplicit false

/-! ## Variable-length quantities -/

theorem Base64.digit_mem_alphabet (value : Nat) : digit value ∈ alphabet := by
  rw [digit, List.getD_eq_getElem?_getD]
  cases found : alphabet[value]? with
  | none => decide
  | some char => exact List.mem_of_getElem? found

namespace SourceMap

namespace Vlq

/-- The six bits of a digit. -/
def digitValue? (char : Char) : Option Nat := Base64.alphabet.idxOf? char

/-- The number that a text begins with, and what follows it. -/
def readNat? : Text → Option (Nat × Text)
  | [] => none
  | char :: rest =>
      (digitValue? char).bind fun digit =>
        if digit < 32 then some (digit, rest)
        else (readNat? rest).map fun (more, rest) => (digit % 32 + 32 * more, rest)

/-- The integer whose sign is the lowest bit. -/
def toInt (value : Nat) : Int := if value % 2 = 0 then value / 2 else -(value / 2)

/-- The integer that a text begins with, and what follows it. -/
def read? (text : Text) : Option (Int × Text) :=
  (readNat? text).map fun (value, rest) => (toInt value, rest)

theorem digitValue?_digit {value : Nat} (isDigit : value < 64) :
    digitValue? (Base64.digit value) = some value := by
  have all : ∀ value < 64, digitValue? (Base64.digit value) = some value := by decide +kernel
  exact all value isDigit

theorem readNat?_encodeNat_append (value : Nat) (rest : Text) :
    readNat? (encodeNat value ++ rest) = some (value, rest) := by
  fun_induction encodeNat value with
  | case1 value last =>
      rw [List.singleton_append, readNat?, digitValue?_digit (by omega), Option.bind_some,
        if_pos last]
  | case2 value continued ih =>
      have digits : (32 + value % 32) % 32 + 32 * (value / 32) = value := by omega
      rw [List.cons_append, readNat?, digitValue?_digit (by omega), Option.bind_some,
        if_neg (by omega), ih, Option.map_some]
      simp only [digits]

theorem toInt_ofInt (value : Int) : toInt (ofInt value) = value := by
  cases value with
  | ofNat magnitude => simp [ofInt, toInt]
  | negSucc magnitude =>
      simp only [ofInt, toInt]
      omega

/-- **An integer is read back, whatever follows it.** -/
theorem read?_encode_append (value : Int) (rest : Text) :
    read? (encode value ++ rest) = some (value, rest) := by
  rw [read?, encode, readNat?_encodeNat_append]
  simp only [Option.map_some, toInt_ofInt]

/-- An integer is written in digits. -/
theorem mem_alphabet_of_mem_encodeNat {value : Nat} {char : Char}
    (member : char ∈ encodeNat value) : char ∈ Base64.alphabet := by
  fun_induction encodeNat value with
  | case1 value last =>
      rw [List.mem_singleton.mp member]
      exact Base64.digit_mem_alphabet _
  | case2 value continued ih =>
      rcases List.mem_cons.mp member with rfl | later
      · exact Base64.digit_mem_alphabet _
      · exact ih later

theorem encodeNat_ne_nil (value : Nat) : encodeNat value ≠ [] := by
  fun_cases encodeNat value <;> simp

end Vlq

/-! ## Segments of a line -/

/-- A counter moved by a difference, unless that makes it negative. -/
def move? (counter : Nat) (difference : Int) : Option Nat := ((counter : Int) + difference).toNat?

/-- A counter moves to any other number. -/
theorem move?_sub (counter target : Nat) :
    move? counter ((target : Int) - counter) = some target := by
  have sum : (counter : Int) + (target - counter) = target := by omega
  rw [move?, sum]
  rfl

/--
A segment of a line, given the generated column and the source position before it.  It is of four
numbers: the difference of the generated column, that of the source, which is none as there is one
source only, and those of the source's line and column.
-/
def readSegment? (line column : Nat) (before : Position) (text : Text) : Option Segment := do
  let (columnBy, text) ← Vlq.read? text
  let (sourceBy, text) ← Vlq.read? text
  let (sourceLineBy, text) ← Vlq.read? text
  let (sourceColumnBy, text) ← Vlq.read? text
  if sourceBy = 0 ∧ text = [] then
    return ⟨⟨line, ← move? column columnBy⟩,
      ⟨← move? before.line sourceLineBy, ← move? before.column sourceColumnBy⟩⟩
  else none

/-- The segments of the rest of a line, and the source position after them. -/
def readFields? (line column : Nat) (before : Position) :
    List Text → Option (List Segment × Position)
  | [] => some ([], before)
  | field :: rest => do
      let segment ← readSegment? line column before field
      let (segments, last) ← readFields? line segment.generated.column segment.source rest
      return (segment :: segments, last)

/-- The texts between the commas of a line; none on an empty line. -/
def fieldsOf (line : Text) : List Text := if line = [] then [] else line.splitOn ','

/-- The segments of lines, given the number of the first line and the source position before it. -/
def readLines? (line : Nat) (before : Position) : List Text → Option (List Segment)
  | [] => some []
  | text :: rest => do
      let (segments, last) ← readFields? line 0 before (fieldsOf text)
      return segments ++ (← readLines? (line + 1) last rest)

/-- The segments of a written mapping. -/
def readMappings? (text : Text) : Option (List Segment) := readLines? 0 default (text.splitOn ';')

/-! ## What is written of segments is read back -/

theorem readSegment?_encodeFields (column : Nat) (before : Position) (segment : Segment) :
    readSegment? segment.generated.line column before
      (Artifact.encodeFields column before segment) = some segment := by
  have last := Vlq.read?_encode_append ((segment.source.column : Int) - before.column) []
  rw [List.append_nil] at last
  simp only [readSegment?, Artifact.encodeFields, List.append_assoc, Vlq.read?_encode_append, last,
    move?_sub, Option.bind_eq_bind, Option.bind_some, and_self, if_pos]
  rfl

/-- A segment is written in digits, so it holds no separator. -/
theorem notMem_encodeFields {separator : Char} (noDigit : separator ∉ Base64.alphabet)
    (column : Nat) (before : Position) (segment : Segment) :
    separator ∉ Artifact.encodeFields column before segment := by
  simp only [Artifact.encodeFields, Vlq.encode, List.mem_append, not_or]
  refine ⟨⟨⟨?_, ?_⟩, ?_⟩, ?_⟩ <;>
    exact fun member => noDigit (Vlq.mem_alphabet_of_mem_encodeNat member)

theorem comma_notMem_alphabet : ',' ∉ Base64.alphabet := by decide

theorem semicolon_notMem_alphabet : ';' ∉ Base64.alphabet := by decide

theorem encodeFields_ne_nil (column : Nat) (before : Position) (segment : Segment) :
    Artifact.encodeFields column before segment ≠ [] := by
  simp [Artifact.encodeFields, Vlq.encode, Vlq.encodeNat_ne_nil]

/-- Characters before a separator go to the first part. -/
theorem splitOn_append_of_notMem {separator : Char} {first : Text} (notMem : separator ∉ first)
    {second part : Text} {parts : List Text} (split : second.splitOn separator = part :: parts) :
    (first ++ second).splitOn separator = (first ++ part) :: parts := by
  induction first with
  | nil => exact split
  | cons char first ih =>
      rw [List.mem_cons, not_or] at notMem
      rw [List.cons_append, List.splitOn_cons_eq_if_modifyHead,
        if_neg (by simpa using Ne.symm notMem.1), ih notMem.2]
      rfl

/-- Separators have nothing before them and nothing between them. -/
theorem splitOn_replicate_append (separator : Char) (count : Nat) (text : Text) :
    (List.replicate count separator ++ text).splitOn separator =
      List.replicate count [] ++ text.splitOn separator := by
  induction count with
  | zero => rfl
  | succ count ih =>
      have first := List.splitOn_append_cons_self (a := separator) []
        (List.replicate count separator ++ text)
      rw [List.nil_append, ih] at first
      exact first

/-- Lines without segments are passed over. -/
theorem readLines?_replicate_append (count line : Nat) (before : Position) (lines : List Text) :
    readLines? line before (List.replicate count [] ++ lines) =
      readLines? (line + count) before lines := by
  induction count generalizing line with
  | zero => rfl
  | succ count ih =>
      have empty : readFields? line 0 before (fieldsOf []) = some ([], before) := rfl
      rw [List.replicate_succ, List.cons_append, readLines?, empty]
      simp only [Option.bind_eq_bind, Option.bind_some, ih, List.nil_append, Option.pure_def,
        Option.bind_fun_some, Nat.add_assoc, Nat.add_comm 1]

/--
Whether a text that follows a written segment is read as some segments: those of the rest of the
line of that segment, and those of the lines after it.
-/
def ReadsAfter (before : Segment) (text : Text) (segments : List Segment) : Prop :=
  ∃ line lines fields sameLine last later,
    text.splitOn ';' = line :: lines ∧ line.splitOn ',' = [] :: fields ∧
      readFields? before.generated.line before.generated.column before.source fields =
        some (sameLine, last) ∧
      readLines? (before.generated.line + 1) last lines = some later ∧ segments = sameLine ++ later

section ReadsAfter

variable {segment : Segment} {text : Text} {segments : List Segment}

/-- A segment begins a line, and its line goes on with what is read after it. -/
theorem readLines?_of_readsAfter (reads : ReadsAfter segment text segments) (before : Position) :
    readLines? segment.generated.line before
        ((Artifact.encodeFields 0 before segment ++ text).splitOn ';') =
      some (segment :: segments) := by
  obtain ⟨line, lines, fields, sameLine, last, later, split, comma, inLine, below, rfl⟩ := reads
  have noSemicolon := notMem_encodeFields semicolon_notMem_alphabet 0 before segment
  have noComma := notMem_encodeFields comma_notMem_alphabet 0 before segment
  have nonempty : Artifact.encodeFields 0 before segment ++ line ≠ [] := fun empty =>
    encodeFields_ne_nil 0 before segment (List.append_eq_nil_iff.mp empty).1
  rw [splitOn_append_of_notMem noSemicolon split, readLines?, fieldsOf, if_neg nonempty,
    splitOn_append_of_notMem noComma comma, List.append_nil, readFields?,
    readSegment?_encodeFields]
  simp only [Option.bind_eq_bind, Option.bind_some, Option.pure_def, inLine, below,
    List.cons_append]

/-- A segment follows another on its line, behind a comma. -/
theorem ReadsAfter.comma {before : Segment} (reads : ReadsAfter segment text segments)
    (sameLine : segment.generated.line = before.generated.line) :
    ReadsAfter before
      ([','] ++ Artifact.encodeFields before.generated.column before.source segment ++ text)
      (segment :: segments) := by
  obtain ⟨line, lines, fields, inLine, last, later, split, comma, first, below, rfl⟩ := reads
  have noSemicolon :=
    notMem_encodeFields semicolon_notMem_alphabet before.generated.column before.source segment
  have noComma :=
    notMem_encodeFields comma_notMem_alphabet before.generated.column before.source segment
  have read := readSegment?_encodeFields before.generated.column before.source segment
  -- Nothing else matters of the written segment.
  generalize Artifact.encodeFields before.generated.column before.source segment = field
    at noSemicolon noComma read
  have noBreak : ';' ∉ [','] ++ field := by simpa using noSemicolon
  refine ⟨[','] ++ field ++ line, lines, field :: fields, segment :: inLine, last, later,
    splitOn_append_of_notMem noBreak split, ?_, ?_, ?_, rfl⟩
  · have separated := List.splitOn_append_cons_self (a := ',') [] (field ++ line)
    rw [splitOn_append_of_notMem noComma comma, List.append_nil] at separated
    exact separated
  · rw [readFields?, ← sameLine, read]
    simp only [Option.bind_eq_bind, Option.bind_some, Option.pure_def, first]
  · rw [← sameLine]
    exact below

/-- A segment follows another on a later line, behind semicolons. -/
theorem ReadsAfter.semicolons {before : Segment} (reads : ReadsAfter segment text segments)
    {breaks : Nat} (below : segment.generated.line = before.generated.line + 1 + breaks) :
    ReadsAfter before
      (List.replicate (breaks + 1) ';' ++ Artifact.encodeFields 0 before.source segment ++ text)
      (segment :: segments) := by
  refine ⟨[], List.replicate breaks [] ++
      (Artifact.encodeFields 0 before.source segment ++ text).splitOn ';',
    [], [], before.source, segment :: segments, ?_, rfl, rfl, ?_, rfl⟩
  · rw [List.append_assoc, splitOn_replicate_append]
    rfl
  · rw [readLines?_replicate_append, ← below]
    exact readLines?_of_readsAfter reads before.source

/-- **What is written of segments after another one is read as these.** -/
theorem readsAfter_encodeAfter {before : Segment} {segments : List Segment}
    (order : (before :: segments).Pairwise fun first second =>
      first.generated.line ≤ second.generated.line) :
    ReadsAfter before (Artifact.encodeAfter (some before) segments) segments := by
  induction segments generalizing before with
  | nil => exact ⟨[], [], [], [], before.source, [], rfl, rfl, rfl, rfl, rfl⟩
  | cons segment segments ih =>
      rw [List.pairwise_cons] at order
      have reads := ih order.2
      have notAbove := order.1 segment (List.mem_cons_self ..)
      obtain ⟨breaks, below⟩ := Nat.exists_eq_add_of_le notAbove
      rw [Artifact.encodeAfter]
      -- Without a line break there is a comma, and with line breaks as many semicolons.
      cases breaks with
      | zero =>
          simpa [below] using reads.comma below
      | succ breaks =>
          have further : segment.generated.line = before.generated.line + 1 + breaks := by omega
          simpa [below] using reads.semicolons further

end ReadsAfter

/-- Nothing is erased where no two neighbours are equal. -/
theorem eraseRepsBy_loop_eq {first : Segment} {rest : List Segment}
    (distinct : (first :: rest).Pairwise (· ≠ ·)) (done : List Segment) :
    List.eraseRepsBy.loop (· == ·) first rest done = done.reverse ++ first :: rest := by
  induction rest generalizing first done with
  | nil => simp [List.eraseRepsBy.loop]
  | cons next rest ih =>
      rw [List.pairwise_cons] at distinct
      have differs : (first == next) = false := by
        simpa using distinct.1 next (List.mem_cons_self ..)
      rw [List.eraseRepsBy.loop, differs]
      simp only [ih distinct.2, List.reverse_cons, List.append_assoc, List.singleton_append]

theorem eraseReps_eq_self {segments : List Segment} (distinct : segments.Pairwise (· ≠ ·)) :
    segments.eraseReps = segments := by
  cases segments with
  | nil => rfl
  | cons first rest => exact eraseRepsBy_loop_eq distinct []

/-- **What is written of segments in order is read back as these segments.** -/
theorem readMappings?_encodeSegments {segments : List Segment}
    (ordered : segments.Pairwise Segment.IsBefore) :
    readMappings? (Artifact.encodeSegments segments) = some segments := by
  have distinct : segments.Pairwise (· ≠ ·) :=
    ordered.imp fun before same => Position.IsBefore.ne before (congrArg Segment.generated same)
  have order : segments.Pairwise fun first second =>
      first.generated.line ≤ second.generated.line :=
    ordered.imp fun before => Or.elim before Nat.le_of_lt fun same => Nat.le_of_eq same.1
  rw [Artifact.encodeSegments, eraseReps_eq_self distinct]
  cases segments with
  | nil => rfl
  | cons first rest =>
      have reads := readLines?_of_readsAfter (readsAfter_encodeAfter order) default
      have written : Artifact.encodeAfter none (first :: rest) =
          List.replicate first.generated.line ';' ++
            (Artifact.encodeFields 0 default first ++ Artifact.encodeAfter (some first) rest) := by
        have start : (default : Segment) = ⟨default, default⟩ := rfl
        have origin : (default : Position) = ⟨0, 0⟩ := rfl
        cases below : first.generated.line with
        | zero => simp [Artifact.encodeAfter, start, origin, below]
        | succ breaks => simp [Artifact.encodeAfter, start, origin, below]
      rw [readMappings?, written, splitOn_replicate_append, readLines?_replicate_append,
        Nat.zero_add]
      exact reads

example : readMappings? "AAAA;;IACE,CAAC".toList =
    some [⟨⟨0, 0⟩, ⟨0, 0⟩⟩, ⟨⟨2, 4⟩, ⟨1, 2⟩⟩, ⟨⟨2, 5⟩, ⟨1, 3⟩⟩] := by decide +kernel

/-! ## The JSON text -/

namespace Artifact

/-- The value of a member of an object. -/
def member? (key : String) (members : List (Option Text × Json.Value)) : Option Json.Value :=
  (members.find? (·.1 = some key.toList)).map (·.2)

/-- The artifact that a JSON value stands for: that of one source, with its text. -/
def ofValue? : Json.Value → Option Artifact
  | .object members =>
      match member? "file" members, member? "sources" members, member? "sourcesContent" members,
        member? "mappings" members with
      | some (.scalar (.string (some file))), some (.array [.scalar (.string (some sourceName))]),
        some (.array [.scalar (.string (some content))]), some (.scalar (.string (some mappings))) =>
          (readMappings? mappings).map (⟨file, sourceName, content, ·⟩)
      | _, _, _, _ => none
  | _ => none

/-- The artifact that a JSON text stands for. -/
def ofJson? (text : Text) : Option Artifact := (Json.parse? text).bind ofValue?

/-- The JSON value of an artifact. -/
def toValue (artifact : Artifact) : Json.Value :=
  let text (content : Text) : Json.Value := .scalar (.string (some content))
  .object [(some "version".toList, .scalar .number), (some "file".toList, text artifact.file),
    (some "sources".toList, .array [text artifact.sourceName]),
    (some "sourcesContent".toList, .array [text artifact.content]),
    (some "names".toList, .array []),
    (some "mappings".toList, text (encodeSegments artifact.segments))]

/-- The JSON text of an artifact spells its JSON value. -/
theorem spells_toJson (artifact : Artifact) :
    Json.Spells artifact.toJson artifact.toValue.tokens := by
  -- Each fixed piece of the text is a row of marks and of quoted keys.
  have mark := Json.Spells.punctuation
  have key (name : String) := Json.Spells.quote name.toList
  have opening : Json.Spells "\x7b\"version\":3,\"file\":".toList _ :=
    (mark '{' rfl).append <| (key "version").append <| (mark ':' rfl).append <|
      Json.Spells.three.append <| (key "file").append (mark ':' rfl)
  have sources : Json.Spells ",\"sources\":[".toList _ :=
    (mark ',' rfl).append <| (key "sources").append <|
      (mark ':' rfl).append (mark '[' rfl)
  have contents : Json.Spells "],\"sourcesContent\":[".toList _ :=
    (mark ']' rfl).append <| (mark ',' rfl).append <|
      (key "sourcesContent").append <| (mark ':' rfl).append (mark '[' rfl)
  have mappings : Json.Spells "],\"names\":[],\"mappings\":".toList _ :=
    (mark ']' rfl).append <| (mark ',' rfl).append <|
      (key "names").append <| (mark ':' rfl).append <| (mark '[' rfl).append <|
      (mark ']' rfl).append <| (mark ',' rfl).append <|
      (key "mappings").append (mark ':' rfl)
  have closing : Json.Spells "\x7d".toList _ := mark '}' rfl
  exact ((((((((opening.append (.quote artifact.file)).append sources).append
    (.quote artifact.sourceName)).append contents).append (.quote artifact.content)).append
    mappings).append (.quote _)).append closing)

theorem member?_cons (key name : String) (value : Json.Value)
    (members : List (Option Text × Json.Value)) :
    member? key ((some name.toList, value) :: members) =
      if name = key then some value else member? key members := by
  have sameText : some name.toList = some key.toList ↔ name = key := by
    rw [Option.some.injEq, String.toList_inj]
  simp only [member?, List.find?_cons, sameText]
  split <;> simp_all

theorem ofValue?_toValue (artifact : Artifact)
    (ordered : artifact.segments.Pairwise Segment.IsBefore) :
    ofValue? artifact.toValue = some artifact := by
  simp only [toValue, ofValue?, member?_cons, String.reduceEq, ↓reduceIte,
    readMappings?_encodeSegments ordered, Option.map_some]

/-- **An artifact is read back from its JSON text, if its segments are in order.** -/
theorem ofJson?_toJson {artifact : Artifact}
    (ordered : artifact.segments.Pairwise Segment.IsBefore) :
    ofJson? artifact.toJson = some artifact := by
  rw [ofJson?, artifact.spells_toJson.parse?_eq, Option.bind_some]
  exact ofValue?_toValue artifact ordered

end Artifact

/--
**The JSON text of a source map tells all of it.**  A reader finds the two names, the source and the
segments of the mappings, strictly in the order of their generated positions.
-/
theorem ofJson?_toJson_artifact (assembly : Assembly) (file sourceName source : Text) :
    Artifact.ofJson?
        (assembly.sourceMap.artifact file sourceName source assembly.text).toJson =
      some ⟨file, sourceName, source, assembly.sourceMap.listedSegments source assembly.text⟩ ∧
    (assembly.sourceMap.listedSegments source assembly.text).Pairwise Segment.IsBefore := by
  have ordered := pairwise_listedSegments assembly source
  have listed := segments_artifact assembly file sourceName source
  rw [Artifact.ofJson?_toJson (listed ▸ ordered), ← listed]
  exact ⟨rfl, listed ▸ ordered⟩

end SourceMap

end ComponentTsx
