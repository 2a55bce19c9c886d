import StyleTypings.Proofs.SourceMap.Lookup
import StyleTypings.Proofs.SourceMap.Vlq
import StyleTypings.Proofs.Text.Joining
import StyleTypings.SourceMap.Segments

/-!
# The text of the mappings read back

A difference between two words moves the first back to the second, so a segment
read with the numbers it was written with gives its mapping again. Along a line
and from line to line the reader's numbers stay those of the writer. Reading
what was written therefore gives the mappings without repeats, if they are in
order, none of them is a range, and all refer to known sources and names.
-/

namespace StyleTypings
namespace Segments

/-- Moving by a difference leads to the other word. -/
@[simp] theorem moved_difference (value previous : UInt32) :
    moved previous (difference value previous) = value := by
  have bound := value.toNat_lt
  have sum : (previous.toNat : Int) +
      ((value.toNat : Int) - (previous.toNat : Int)) = value.toNat := by omega
  have wrapped : ((value.toNat : Int) % UInt32.size).toNat = value.toNat := by
    change ((value.toNat : Int) % 4294967296).toNat = value.toNat
    omega
  unfold moved difference
  rw [sum, wrapped, UInt32.ofNat_toNat]

/-- Differences between words are short. -/
theorem fits_difference (value previous : UInt32) :
    Vlq.Fits (difference value previous) := by
  have folded := Vlq.fold_le (difference value previous)
  have near : (difference value previous).natAbs < 4294967296 := by
    have valueBound := value.toNat_lt
    have previousBound := previous.toNat_lt
    unfold difference
    omega
  have room : 2 * 4294967296 ≤ 32 ^ Vlq.maxDigits := by decide
  unfold Vlq.Fits
  omega

/-- Whether a mapping refers to a known source and, if it has one, to a known
name. -/
def Refers (limits : Limits) (mapping : Mapping) : Prop :=
  ∀ origin, mapping.origin = some origin →
    origin.source.toNat < limits.sources ∧
      ∀ name, origin.name = some name → name.toNat < limits.names

theorem numbers_fit (running : Running) (mapping : Mapping) :
    ∀ value ∈ numbers running mapping, Vlq.Fits value := by
  intro value present
  unfold numbers at present
  rcases mapping with ⟨line, column, origin, isRange⟩
  cases origin with
  | none =>
      simp only [List.mem_singleton] at present
      exact present ▸ fits_difference _ _
  | some origin =>
      rcases origin with ⟨source, originalLine, originalColumn, name⟩
      cases name with
      | none =>
          simp only [List.mem_cons, List.not_mem_nil, or_false] at present
          rcases present with rfl | rfl | rfl | rfl <;> exact fits_difference _ _
      | some name =>
          simp only [List.mem_cons, List.not_mem_nil, or_false] at present
          rcases present with rfl | rfl | rfl | rfl | rfl <;>
            exact fits_difference _ _

/-- The numbers after the first lead to the origin they were written for. -/
theorem originOf_numbers
    {limits : Limits}
    {mapping : Mapping}
    (running : Running)
    (refers : Refers limits mapping) :
    originOf limits running (numbers running mapping).tail = .ok mapping.origin := by
  rcases mapping with ⟨line, column, origin, isRange⟩
  cases origin with
  | none => rfl
  | some origin =>
      rcases origin with ⟨source, originalLine, originalColumn, name⟩
      obtain ⟨sourceKnown, nameKnown⟩ := refers _ rfl
      have sourceInside : ¬ limits.sources ≤ source.toNat := by
        simpa using sourceKnown
      cases name with
      | none =>
          simp [numbers, originOf, sourceInside]
      | some name =>
          have nameInside : ¬ limits.names ≤ name.toNat := by
            simpa using nameKnown name rfl
          simp [numbers, originOf, sourceInside, nameInside]

/-- A segment gives its mapping again. -/
theorem decodeSegment_encodeSegment
    {limits : Limits}
    {mapping : Mapping}
    (running : Running)
    (refers : Refers limits mapping) :
    decodeSegment limits running mapping.line mapping.isRange
      (encodeSegment running mapping) = .ok mapping := by
  have shape : numbers running mapping =
      difference mapping.column running.column :: (numbers running mapping).tail := rfl
  have read : Vlq.decode (encodeSegment running mapping) =
      .ok (numbers running mapping) :=
    Vlq.decode_flatMap_encode (by rw [shape]; exact List.cons_ne_nil _ _)
      (numbers_fit running mapping)
  have origin := originOf_numbers running refers
  unfold decodeSegment
  rw [read, shape]
  simp only [bind, Except.bind, origin, moved_difference]

theorem encodeSegment_ne_nil (running : Running) (mapping : Mapping) :
    encodeSegment running mapping ≠ [] := by
  unfold encodeSegment numbers
  rw [List.flatMap_cons]
  intro empty
  exact Vlq.encodeFolded_ne_nil _ (List.append_eq_nil_iff.mp empty).1

theorem comma_notMem_encodeSegment (running : Running) (mapping : Mapping) :
    ',' ∉ encodeSegment running mapping := by
  intro present
  obtain ⟨value, -, written⟩ := List.mem_flatMap.mp present
  exact Vlq.comma_notMem_encode value written

theorem semicolon_notMem_encodeSegment (running : Running) (mapping : Mapping) :
    ';' ∉ encodeSegment running mapping := by
  intro present
  obtain ⟨value, -, written⟩ := List.mem_flatMap.mp present
  exact Vlq.semicolon_notMem_encode value written

/-! ## Lines -/

/-- Each text of a line is the segment of a mapping. -/
theorem exists_of_mem_encodeLine
    {running : Running}
    {previous : Option Mapping}
    {mappings : List Mapping}
    {segment : Text}
    (present : segment ∈ (encodeLine running previous mappings).1) :
    ∃ before mapping, segment = encodeSegment before mapping := by
  induction mappings generalizing running previous with
  | nil => simp [encodeLine] at present
  | cons mapping rest inductionHypothesis =>
      rw [encodeLine] at present
      split at present
      · exact inductionHypothesis present
      · rcases List.mem_cons.mp present with first | later
        · exact ⟨running, mapping, first⟩
        · exact inductionHypothesis later

/-- A line gives its mappings without repeats, and the reader ends with the
writer's numbers. -/
theorem decodeLine_encodeLine
    {limits : Limits}
    {line : UInt32}
    {mappings : List Mapping}
    (running : Running)
    (previous : Option Mapping)
    (here : ∀ mapping ∈ mappings, mapping.line = line)
    (points : ∀ mapping ∈ mappings, mapping.isRange = false)
    (refer : ∀ mapping ∈ mappings, Refers limits mapping) :
    decodeLine limits line running [] (encodeLine running previous mappings).1 =
      .ok (Mapping.dropRepeats previous mappings,
        (encodeLine running previous mappings).2) := by
  induction mappings generalizing running previous with
  | nil => rfl
  | cons mapping rest inductionHypothesis =>
      have later (before : Running) (prior : Option Mapping) :=
        inductionHypothesis before prior
          (fun other among => here other (List.mem_cons_of_mem mapping among))
          (fun other among => points other (List.mem_cons_of_mem mapping among))
          (fun other among => refer other (List.mem_cons_of_mem mapping among))
      rw [encodeLine, Mapping.dropRepeats]
      by_cases repeated : previous = some mapping
      · rw [if_pos repeated, if_pos repeated]
        exact later running previous
      · have nonempty : ¬ (encodeSegment running mapping).isEmpty = true := by
          rw [List.isEmpty_iff]
          exact encodeSegment_ne_nil running mapping
        have segment := decodeSegment_encodeSegment running
          (refer mapping List.mem_cons_self)
        rw [here mapping List.mem_cons_self, points mapping List.mem_cons_self]
          at segment
        rw [if_neg repeated, if_neg repeated]
        simp only [decodeLine, if_neg nonempty, List.headD_nil, List.tail_nil,
          segment, later, bind, Except.bind]

/-- Without mappings on a line nothing is written for it, and with some of them
something is. -/
theorem encodeLine_eq_nil
    {running : Running}
    {mappings : List Mapping}
    (empty : (encodeLine running none mappings).1 = []) :
    mappings = [] := by
  cases mappings with
  | nil => rfl
  | cons mapping rest =>
      rw [encodeLine, if_neg nofun] at empty
      exact absurd empty (List.cons_ne_nil _ _)

/-- The text of a line splits into its segments again. -/
theorem splitAt_encodeLine
    {running : Running}
    {mappings : List Mapping}
    (nonempty : mappings ≠ []) :
    Text.splitAt ',' (Text.join [','] (encodeLine running none mappings).1) =
      (encodeLine running none mappings).1 := by
  apply Text.splitAt_join
  · exact fun empty => nonempty (encodeLine_eq_nil empty)
  · intro segment present
    obtain ⟨before, mapping, rfl⟩ := exists_of_mem_encodeLine present
    exact comma_notMem_encodeSegment before mapping

theorem join_encodeLine_ne_nil
    {running : Running}
    {mappings : List Mapping}
    (nonempty : mappings ≠ []) :
    Text.join [','] (encodeLine running none mappings).1 ≠ [] := by
  intro empty
  rcases Text.join_eq_nil empty with none_left | blank
  · exact nonempty (encodeLine_eq_nil none_left)
  · have present : ([] : Text) ∈ (encodeLine running none mappings).1 := by
      rw [blank]
      exact List.mem_cons_self
    obtain ⟨before, mapping, impossible⟩ := exists_of_mem_encodeLine present
    exact encodeSegment_ne_nil before mapping impossible.symm

/-- No text of a line holds the character between lines. -/
theorem semicolon_notMem_encodeLines
    (running : Running)
    (mappings : List Mapping)
    (line count : Nat) :
    ∀ text ∈ encodeLines running mappings line count, ';' ∉ text := by
  induction count generalizing running mappings line with
  | zero => simp [encodeLines]
  | succ count inductionHypothesis =>
      intro text present
      rw [encodeLines] at present
      rcases List.mem_cons.mp present with rfl | later
      · intro written
        rcases Text.mem_join written with comma | ⟨segment, among, inside⟩
        · exact absurd comma (by decide)
        · obtain ⟨before, mapping, rfl⟩ := exists_of_mem_encodeLine among
          exact semicolon_notMem_encodeSegment before mapping inside
      · exact inductionHypothesis _ _ _ text later

/-! ## The whole text -/

/-- In order and not before a line, the mappings off that line come later. -/
theorem line_lt_of_mem_dropWhile
    {mappings : List Mapping}
    {line : Nat}
    (ordered : mappings.Pairwise (Mapping.precedes · ·))
    (reached : ∀ mapping ∈ mappings, line ≤ mapping.line.toNat) :
    ∀ mapping ∈ mappings.dropWhile fun mapping => mapping.line.toNat == line,
      line < mapping.line.toNat := by
  induction mappings with
  | nil => simp
  | cons first rest inductionHypothesis =>
      have orderedRest := (List.pairwise_cons.mp ordered).2
      have reachedRest : ∀ mapping ∈ rest, line ≤ mapping.line.toNat :=
        fun mapping among => reached mapping (List.mem_cons_of_mem first among)
      by_cases here : first.line.toNat = line
      · rw [List.dropWhile_cons_of_pos (by simpa using here)]
        exact inductionHypothesis orderedRest reachedRest
      · rw [List.dropWhile_cons_of_neg (by simpa using here)]
        have firstReached := reached first List.mem_cons_self
        intro mapping present
        rcases List.mem_cons.mp present with rfl | among
        · omega
        · have later := Mapping.line_le_of_precedes
            ((List.pairwise_cons.mp ordered).1 mapping among)
          omega

/-- In order, no mapping is on a later line than the last. -/
theorem line_le_getLast
    {mappings : List Mapping}
    {last : Mapping}
    (ordered : mappings.Pairwise (Mapping.precedes · ·))
    (isLast : mappings.getLast? = some last) :
    ∀ mapping ∈ mappings, mapping.line.toNat ≤ last.line.toNat := by
  intro mapping among
  obtain ⟨front, rfl⟩ := List.getLast?_eq_some_iff.mp isLast
  rcases List.mem_append.mp among with earlier | atEnd
  · exact Mapping.line_le_of_precedes
      ((List.pairwise_append.mp ordered).2.2 mapping earlier last List.mem_cons_self)
  · rw [List.mem_singleton.mp atEnd]

/-- A last mapping on a line differs from a first one off it. -/
theorem dropRepeats_takeWhile_dropWhile
    (mappings : List Mapping)
    (line : Nat) :
    Mapping.dropRepeats none
          (mappings.takeWhile fun mapping => mapping.line.toNat == line) ++
        Mapping.dropRepeats none
          (mappings.dropWhile fun mapping => mapping.line.toNat == line) =
      Mapping.dropRepeats none mappings := by
  have split := List.takeWhile_append_dropWhile
    (p := fun mapping : Mapping => mapping.line.toNat == line) (l := mappings)
  conv => rhs; rw [← split, Mapping.dropRepeats_append]
  congr 1
  symm
  apply Mapping.dropRepeats_of_head?_ne
  intro mapping last first
  have inTaken : mapping ∈ mappings.takeWhile fun mapping => mapping.line.toNat == line := by
    rw [Option.or_none] at last
    exact List.mem_of_getLast? last
  have on := List.mem_takeWhile_imp inTaken
  have off := List.head?_dropWhile_not
    (fun mapping : Mapping => mapping.line.toNat == line) mappings
  rw [first] at off
  simp_all

/-- The lines from one on that hold mappings in order give them without
repeats. Between lines only the column differs, which starts again. -/
theorem decodeLines_encodeLines
    {limits : Limits}
    {mappings : List Mapping}
    {line count : Nat}
    {rows : List Text}
    {writing reading : Running}
    (blank : ∀ row ∈ rows, row = [])
    (same : reading.newLine = writing.newLine)
    (ordered : mappings.Pairwise (Mapping.precedes · ·))
    (points : ∀ mapping ∈ mappings, mapping.isRange = false)
    (refer : ∀ mapping ∈ mappings, Refers limits mapping)
    (reached : ∀ mapping ∈ mappings, line ≤ mapping.line.toNat)
    (ends : ∀ mapping ∈ mappings, mapping.line.toNat < line + count) :
    decodeLines limits line reading rows (encodeLines writing mappings line count) =
      .ok (Mapping.dropRepeats none mappings) := by
  induction count generalizing mappings line rows writing reading with
  | zero =>
      have empty : mappings = [] := by
        apply List.eq_nil_iff_forall_not_mem.mpr
        intro mapping among
        have below := ends mapping among
        have above := reached mapping among
        omega
      rw [empty]
      rfl
  | succ count inductionHypothesis =>
      set here := mappings.takeWhile fun mapping => mapping.line.toNat == line
        with here_def
      set later := mappings.dropWhile fun mapping => mapping.line.toNat == line
        with later_def
      have laterSublist : later.Sublist mappings := List.dropWhile_sublist _
      have hereSublist : here.Sublist mappings := List.takeWhile_sublist _
      have laterReached := line_lt_of_mem_dropWhile ordered reached
      have rest {before after : Running} (agree : after.newLine = before.newLine) :
          decodeLines limits (line + 1) after rows.tail
              (encodeLines before later (line + 1) count) =
            .ok (Mapping.dropRepeats none later) :=
        inductionHypothesis
          (fun row among => blank row (List.mem_of_mem_tail among)) agree
          (ordered.sublist laterSublist)
          (fun mapping among => points mapping (laterSublist.subset among))
          (fun mapping among => refer mapping (laterSublist.subset among))
          laterReached
          (fun mapping among => by
            have below := ends mapping (laterSublist.subset among)
            omega)
      have whole := dropRepeats_takeWhile_dropWhile mappings line
      rw [← here_def, ← later_def] at whole
      rw [encodeLines, ← here_def, ← later_def, ← whole]
      rcases Classical.em (here = []) with none_here | some_here
      · -- nothing is written for the line, and nothing is read
        rw [none_here]
        simp only [encodeLine]
        exact rest same
      · have written : ¬ (Text.join [',']
            (encodeLine writing.newLine none here).1).isEmpty = true := by
          rw [List.isEmpty_iff]
          exact join_encodeLine_ne_nil some_here
        have onLine : ∀ mapping ∈ here, mapping.line = line.toUInt32 := by
          intro mapping among
          have at_line := List.mem_takeWhile_imp among
          rw [beq_iff_eq] at at_line
          rw [← at_line]
          exact UInt32.ofNat_toNat.symm
        have marks : RangeMarkers.decodeRow (rows.headD []) = .ok [] := by
          cases rows with
          | nil => rfl
          | cons row rows => rw [List.headD_cons, blank row List.mem_cons_self]; rfl
        have decoded := decodeLine_encodeLine writing.newLine none onLine
          (fun mapping among => points mapping (hereSublist.subset among))
          (fun mapping among => refer mapping (hereSublist.subset among))
        rw [decodeLines, if_neg written, marks, splitAt_encodeLine some_here, same]
        simp only [bind, Except.bind, decoded, rest rfl]

/-- The text of mappings in order, none of them a range and all within the
limits, gives them back without repeats. -/
theorem decode_encode
    {limits : Limits}
    {mappings : List Mapping}
    (ordered : mappings.Pairwise (Mapping.precedes · ·))
    (points : ∀ mapping ∈ mappings, mapping.isRange = false)
    (refer : ∀ mapping ∈ mappings, Refers limits mapping) :
    decode limits [] (encode mappings) = .ok (Mapping.dropRepeats none mappings) := by
  have blank : ∀ row ∈ Text.splitAt ';' [], row = [] := by simp [Text.splitAt]
  unfold encode
  split
  · next empty =>
      rw [List.getLast?_eq_none_iff.mp empty]
      rfl
  · next last isLast =>
      have split : Text.splitAt ';' (Text.join [';']
          (encodeLines Running.start mappings 0 (last.line.toNat + 1))) =
            encodeLines Running.start mappings 0 (last.line.toNat + 1) :=
        Text.splitAt_join (List.cons_ne_nil _ _)
          (semicolon_notMem_encodeLines _ _ _ _)
      have ends : ∀ mapping ∈ mappings, mapping.line.toNat < 0 + (last.line.toNat + 1) := by
        intro mapping among
        have bound := line_le_getLast ordered isLast mapping among
        omega
      unfold decode
      rw [split]
      exact decodeLines_encodeLines blank rfl ordered points refer
        (fun _ _ => Nat.zero_le _) ends

end Segments
end StyleTypings
