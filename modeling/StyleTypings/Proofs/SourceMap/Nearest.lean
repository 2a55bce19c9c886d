import Mathlib.Data.List.Nodup
import StyleTypings.Proofs.SourceMap.Building

/-!
# The nearest mapping on a line

A built map answers with the entry of the last column at or before a place among the entries
on its line, whatever the order in which they were added. The search goes through all mappings
in the order of their places and may end on an earlier line, where it comes to nothing, so
entries on other lines never matter. Entries that cannot be mapped leave no trace in the map.
-/

namespace StyleTypings

/-! ## Searching ordered mappings -/

namespace Mapping

/-- A mapping lies at a place or before it. -/
def UpTo (mapping : Mapping) (line column : UInt32) : Prop :=
  mapping.isBefore line column = true ∨ mapping.isAt line column = true

theorem upTo_iff (mapping : Mapping) (line column : UInt32) :
    mapping.UpTo line column ↔
      mapping.line.toNat < line.toNat ∨
        (mapping.line.toNat = line.toNat ∧ mapping.column.toNat ≤ column.toNat) := by
  unfold UpTo
  rw [isBefore_iff, isAt_iff, ← UInt32.toNat_inj, ← UInt32.toNat_inj]
  omega

theorem precedes_refl (mapping : Mapping) : mapping.precedes mapping = true := by
  rw [precedes_iff]
  omega

/-- What precedes a mapping before a place lies before it as well. -/
theorem isBefore_of_precedes
    {left right : Mapping}
    {line column : UInt32}
    (ordered : left.precedes right = true)
    (before : right.isBefore line column = true) :
    left.isBefore line column = true := by
  rw [precedes_iff] at ordered
  rw [isBefore_iff] at before ⊢
  omega

/-- Among ordered mappings those before a place stand in front. -/
theorem mem_takeWhile_isBefore
    {mappings : List Mapping}
    {mapping : Mapping}
    {line column : UInt32}
    (ordered : mappings.Pairwise (precedes · ·))
    (present : mapping ∈ mappings)
    (before : mapping.isBefore line column = true) :
    mapping ∈ mappings.takeWhile fun other => other.isBefore line column := by
  induction mappings with
  | nil => exact present
  | cons first rest inductionHypothesis =>
      obtain ⟨precedes, later⟩ := List.pairwise_cons.mp ordered
      rcases List.mem_cons.mp present with rfl | behind
      · simp [before]
      · have firstBefore := isBefore_of_precedes (precedes mapping behind) before
        simp [firstBefore, inductionHypothesis later behind]

/-- The last of some ordered mappings is behind all of them. -/
theorem precedes_getLast?
    {mappings : List Mapping}
    {last : Mapping}
    (ordered : mappings.Pairwise (precedes · ·))
    (isLast : mappings.getLast? = some last) :
    ∀ mapping ∈ mappings, mapping.precedes last = true := by
  intro mapping present
  obtain ⟨front, rfl⟩ := List.getLast?_eq_some_iff.mp isLast
  rcases List.mem_append.mp present with earlier | same
  · exact (List.pairwise_append.mp ordered).2.2 mapping earlier last List.mem_cons_self
  · rw [List.mem_singleton.mp same]
    exact precedes_refl last

end Mapping

namespace SourceMap

/-- A mapping is the last of those up to a place. -/
structure IsLastUpTo (map : SourceMap) (line column : UInt32) (mapping : Mapping) : Prop where
  mem : mapping ∈ map.mappings
  upTo : mapping.UpTo line column
  last : ∀ other ∈ map.mappings, other.UpTo line column → other.precedes mapping = true

section

variable {map : SourceMap} {line column : UInt32}

/-- Of mappings up to a place where none lies, all lie before it. -/
theorem isBefore_of_find?_eq_none
    (nowhere : map.mappings.find? (·.isAt line column) = none)
    {mapping : Mapping}
    (present : mapping ∈ map.mappings)
    (upTo : mapping.UpTo line column) :
    mapping.isBefore line column = true := by
  have notAt := List.find?_eq_none.mp nowhere mapping present
  exact upTo.resolve_right notAt

variable (ordered : map.mappings.Pairwise (Mapping.precedes · ·))
include ordered

theorem isLastUpTo_of_governing?
    {mapping : Mapping}
    (governs : map.governing? line column = some mapping) :
    map.IsLastUpTo line column mapping := by
  have present := mem_of_governing? governs
  unfold governing? at governs
  cases found : map.mappings.find? (·.isAt line column) with
  | some exactly =>
      rw [found] at governs
      obtain rfl := Option.some.inj governs
      have isAt : exactly.isAt line column = true := by simpa using List.find?_some found
      obtain ⟨sameLine, sameColumn⟩ := (Mapping.isAt_iff _ _ _).mp isAt
      refine ⟨present, .inr isAt, fun other _ upTo => ?_⟩
      rw [Mapping.upTo_iff] at upTo
      rw [Mapping.precedes_iff, sameLine, sameColumn]
      exact upTo
  | none =>
      rw [found] at governs
      have front := List.takeWhile_sublist (l := map.mappings) (·.isBefore line column)
      have before := List.mem_takeWhile_imp (List.mem_of_getLast? governs)
      refine ⟨present, .inl before, fun other among upTo => ?_⟩
      apply Mapping.precedes_getLast? (ordered.sublist front) governs
      apply Mapping.mem_takeWhile_isBefore ordered among
      exact isBefore_of_find?_eq_none found among upTo

/-- No mapping governs a place just if none lies up to it. -/
theorem not_upTo_of_governing?_eq_none
    (nothing : map.governing? line column = none) :
    ∀ mapping ∈ map.mappings, ¬mapping.UpTo line column := by
  intro mapping present upTo
  unfold governing? at nothing
  cases found : map.mappings.find? (·.isAt line column) with
  | some exactly => simp [found] at nothing
  | none =>
      rw [found] at nothing
      have before := isBefore_of_find?_eq_none found present upTo
      have inFront := Mapping.mem_takeWhile_isBefore ordered present before
      rw [List.getLast?_eq_none_iff.mp nothing] at inFront
      exact absurd inFront List.not_mem_nil

end

/-! ## Entries on a line -/

namespace Entry

/-- Among the entries on the line of a place and not behind it, the last one. -/
structure IsNearest
    (entries : List Entry)
    (generated : GeneratedPosition)
    (entry : Entry) : Prop where
  mem : entry ∈ entries
  line : entry.generated.line = generated.line
  column_le : entry.generated.column ≤ generated.column
  last : ∀ other ∈ entries, other.generated.line = generated.line →
    other.generated.column ≤ generated.column →
      other.generated.column ≤ entry.generated.column

/-- No entry lies on the line of a place without being behind it. -/
def NoneUpTo (entries : List Entry) (generated : GeneratedPosition) : Prop :=
  ∀ entry ∈ entries, entry.generated.line = generated.line →
    generated.column < entry.generated.column

/-- Entries at different places have one nearest to a place at most. -/
theorem IsNearest.unique
    {entries : List Entry}
    {generated : GeneratedPosition}
    {left right : Entry}
    (apart : entries.Pairwise fun left right => left.generated ≠ right.generated)
    (one : IsNearest entries generated left)
    (other : IsNearest entries generated right) :
    left = right := by
  have lines : left.generated.line = right.generated.line := one.line.trans other.line.symm
  have columns : left.generated.column = right.generated.column := by
    apply UInt32.le_antisymm
    · exact other.last left one.mem one.line one.column_le
    · exact one.last right other.mem other.line other.column_le
  have places : left.generated = right.generated := by
    rcases left with ⟨⟨_, _⟩, _⟩
    rcases right with ⟨⟨_, _⟩, _⟩
    simp_all
  have differ : (entries.map Entry.generated).Nodup := List.pairwise_map.mpr apart
  exact List.inj_on_of_nodup_map differ one.mem other.mem places

theorem ne_zero_iff_one_le (word : UInt32) : word ≠ 0 ↔ 1 ≤ word := by
  rw [ne_eq, ← UInt32.toNat_inj, UInt32.le_iff_toNat_le, UInt32.toNat_zero, UInt32.toNat_one]
  omega

/-- An entry can be mapped if it has a source and both its lines count from one. -/
theorem isMappable_iff (entry : Entry) :
    entry.isMappable = true ↔
      (∃ source, entry.original.source = some source) ∧
        1 ≤ entry.generated.line ∧ 1 ≤ entry.original.line := by
  simp only [isMappable, Bool.and_eq_true, bne_iff_ne, Option.isSome_iff_exists,
    ne_zero_iff_one_le, and_assoc]

theorem one_le_line
    {calls : List Entry}
    {entry : Entry}
    (accepted : entry ∈ calls.filter isMappable) :
    1 ≤ entry.generated.line :=
  ((isMappable_iff entry).mp (List.mem_filter.mp accepted).2).2.1

theorem toNat_sub_one {word : UInt32} (positive : 1 ≤ word) :
    (word - 1).toNat = word.toNat - 1 :=
  UInt32.toNat_sub_of_le word 1 positive

/-- The mapping of an entry lies up to a place if the entry is on an earlier line, or on its
line and not behind it. -/
theorem upTo_toMapping
    {entry : Entry}
    {generated : GeneratedPosition}
    (counted : 1 ≤ entry.generated.line)
    (asked : 1 ≤ generated.line)
    (source : UInt32) :
    (entry.toMapping source).UpTo (generated.line - 1) generated.column ↔
      entry.generated.line < generated.line ∨
        (entry.generated.line = generated.line ∧
          entry.generated.column ≤ generated.column) := by
  rw [Mapping.upTo_iff]
  unfold toMapping
  simp only [toNat_sub_one counted, toNat_sub_one asked]
  rw [UInt32.le_iff_toNat_le] at counted asked
  rw [UInt32.lt_iff_toNat_lt, UInt32.le_iff_toNat_le, ← UInt32.toNat_inj]
  rw [UInt32.toNat_one] at counted asked
  omega

/-- The mappings of entries are in the order of the entries' places. -/
theorem precedes_toMapping
    {left right : Entry}
    (leftCounted : 1 ≤ left.generated.line)
    (rightCounted : 1 ≤ right.generated.line)
    (leftSource rightSource : UInt32) :
    (left.toMapping leftSource).precedes (right.toMapping rightSource) = true ↔
      left.generated.line < right.generated.line ∨
        (left.generated.line = right.generated.line ∧
          left.generated.column ≤ right.generated.column) := by
  rw [Mapping.precedes_iff]
  unfold toMapping
  simp only [toNat_sub_one leftCounted, toNat_sub_one rightCounted]
  rw [UInt32.le_iff_toNat_le, UInt32.toNat_one] at leftCounted rightCounted
  rw [UInt32.lt_iff_toNat_lt, UInt32.le_iff_toNat_le, ← UInt32.toNat_inj]
  omega

end Entry

/-- The mapping of an entry leads to its original position, in the file that the map has
under the number of its source, unless its column is absent. -/
theorem leadsTo?_toMapping_eq
    {entry : Entry}
    (line : 1 ≤ entry.original.line)
    (file : Option Text)
    (calls : List Entry)
    (source column : UInt32) :
    (build file calls).leadsTo? (entry.toMapping source) column =
      if entry.original.column = absent then none
      else some { entry.original with source := (build file calls).sources[source.toNat]? } := by
  have known : entry.original.line - 1 ≠ absent := by
    intro isAbsent
    have back := congrArg (· + 1) isAbsent
    have zero : entry.original.line = 0 := by simpa [absent] using back
    rw [zero] at line
    exact absurd line (by decide)
  have kept (sources : Option Text) :
      sources.map (resolveSource (build file calls).sourceRoot) = sources := by
    cases sources <;> rfl
  unfold leadsTo? Entry.toMapping
  simp [known, kept, bind, Option.bind]

/-- A map of no more sources than there are words numbers each of them rightly. -/
theorem getElem?_sources_idxOf
    {map : SourceMap}
    {source : Text}
    (few : map.sources.length ≤ UInt32.size)
    (known : source ∈ map.sources) :
    map.sources[(map.sources.idxOf source).toUInt32.toNat]? = some source := by
  have inside := List.idxOf_lt_length_iff.mpr known
  have number : (map.sources.idxOf source).toUInt32.toNat = map.sources.idxOf source :=
    UInt32.toNat_ofNat_of_lt' (Nat.lt_of_lt_of_le inside few)
  rw [number, List.getElem?_idxOf known]

/-- What a map answers for a place whose nearest entry is known: the entry's original position
unless its column is absent. The file is the entry's own if words number all sources. -/
def AnswersBy
    (map : SourceMap)
    (generated : GeneratedPosition)
    (entry : Entry) : Prop :=
  ∃ source, (map.sources.length ≤ UInt32.size → source = entry.original.source) ∧
    map.originalPosition? generated =
      if entry.original.column = absent then none else some { entry.original with source }

section

variable {file : Option Text} {calls : List Entry}

theorem mem_mappings_of_mem_filter
    (file : Option Text)
    {entry : Entry}
    (accepted : entry ∈ calls.filter Entry.isMappable) :
    ∃ number, entry.toMapping number ∈ (build file calls).mappings := by
  obtain ⟨present, mappable⟩ := List.mem_filter.mp accepted
  obtain ⟨⟨source, named⟩, -⟩ := (Entry.isMappable_iff entry).mp mappable
  exact ⟨_, mem_mappings_build.mpr ⟨entry, present, mappable, source, named, rfl⟩⟩

theorem originalPosition?_of_governing?
    {map : SourceMap}
    {generated : GeneratedPosition}
    {mapping : Mapping}
    (counted : generated.line ≠ 0)
    (governs : map.governing? (generated.line - 1) generated.column = some mapping) :
    map.originalPosition? generated =
      if mapping.line = generated.line - 1 then map.leadsTo? mapping generated.column
      else none := by
  simp only [originalPosition?, if_neg counted, governs, bind, Option.bind]

/-- A map that goes by the mapping of an entry answers by the entry. -/
theorem answersBy_of_leadsTo?
    {generated : GeneratedPosition}
    {entry : Entry}
    {source : Text}
    (present : entry ∈ calls)
    (mappable : entry.isMappable = true)
    (named : entry.original.source = some source)
    (leads : (build file calls).originalPosition? generated =
      (build file calls).leadsTo?
        (entry.toMapping ((build file calls).sources.idxOf source).toUInt32)
        generated.column) :
    (build file calls).AnswersBy generated entry := by
  have counted := ((Entry.isMappable_iff entry).mp mappable).2.2
  refine ⟨_, fun few => ?_, leads.trans (leadsTo?_toMapping_eq counted file calls _ _)⟩
  rw [named]
  exact getElem?_sources_idxOf few (mem_sources_build present mappable named)

/-- The last entry up to a place is nearest to it if it is on its line; otherwise no entry is
up to the place on its line. -/
theorem isNearest_or_noneUpTo
    {generated : GeneratedPosition}
    {entry : Entry}
    {number : UInt32}
    (asked : 1 ≤ generated.line)
    (accepted : entry ∈ calls.filter Entry.isMappable)
    (isLast : (build file calls).IsLastUpTo (generated.line - 1) generated.column
      (entry.toMapping number)) :
    if entry.generated.line = generated.line then
      Entry.IsNearest (calls.filter Entry.isMappable) generated entry
    else
      Entry.NoneUpTo (calls.filter Entry.isMappable) generated := by
  have counted := Entry.one_le_line accepted
  have upTo := (Entry.upTo_toMapping counted asked _).mp isLast.upTo
  have behind {other : Entry} (acceptedToo : other ∈ calls.filter Entry.isMappable)
      (same : other.generated.line = generated.line)
      (within : other.generated.column ≤ generated.column) :
      generated.line < entry.generated.line ∨ generated.line = entry.generated.line ∧
        other.generated.column ≤ entry.generated.column := by
    obtain ⟨sourceNumber, listed⟩ := mem_mappings_of_mem_filter file acceptedToo
    have countedToo := Entry.one_le_line acceptedToo
    have precedes := isLast.last _ listed
      ((Entry.upTo_toMapping countedToo asked sourceNumber).mpr (.inr ⟨same, within⟩))
    rwa [Entry.precedes_toMapping countedToo counted, same] at precedes
  split
  · next here =>
      have column := (upTo.resolve_left fun earlier => UInt32.lt_irrefl _ (here ▸ earlier)).2
      refine ⟨accepted, here, column, fun other acceptedToo same within => ?_⟩
      rcases behind acceptedToo same within with later | ⟨-, before⟩
      · exact absurd (here ▸ later) (UInt32.lt_irrefl _)
      · exact before
  · next elsewhere =>
      have earlier := upTo.resolve_right fun here => elsewhere here.1
      intro other acceptedToo same
      apply UInt32.not_le.mp
      intro within
      rcases behind acceptedToo same within with later | ⟨here, -⟩
      · exact UInt32.lt_irrefl _ (UInt32.lt_trans earlier later)
      · exact elsewhere here.symm

/-- A place is answered for by an entry that is nearest to it, or there is none up to it on
its line and nothing is answered. -/
theorem originalPosition?_build_cases
    (file : Option Text)
    (calls : List Entry)
    (generated : GeneratedPosition) :
    (∃ entry, Entry.IsNearest (calls.filter Entry.isMappable) generated entry ∧
        (build file calls).AnswersBy generated entry) ∨
      Entry.NoneUpTo (calls.filter Entry.isMappable) generated ∧
        (build file calls).originalPosition? generated = none := by
  have ordered := Mapping.pairwise_mergeSort
    ((calls.filter Entry.isMappable).filterMap (Entry.mapping? (build file calls).sources))
  by_cases zero : generated.line = 0
  · refine .inr ⟨fun entry accepted same => ?_, if_pos zero⟩
    have counted := Entry.one_le_line accepted
    rw [same, zero] at counted
    exact absurd counted (by decide)
  have asked := (Entry.ne_zero_iff_one_le generated.line).mp zero
  cases governs : (build file calls).governing? (generated.line - 1) generated.column with
  | none =>
      refine .inr ⟨fun entry accepted same => ?_, ?_⟩
      · obtain ⟨number, listed⟩ := mem_mappings_of_mem_filter file accepted
        have behind := not_upTo_of_governing?_eq_none ordered governs _ listed
        rw [Entry.upTo_toMapping (Entry.one_le_line accepted) asked] at behind
        exact UInt32.not_le.mp fun upTo => behind (.inr ⟨same, upTo⟩)
      · simp [originalPosition?, zero, governs]
  | some mapping =>
      have isLast := isLastUpTo_of_governing? ordered governs
      have answer := originalPosition?_of_governing? zero governs
      obtain ⟨entry, present, mappable, source, named, rfl⟩ := mem_mappings_build.mp isLast.mem
      have near := isNearest_or_noneUpTo asked (List.mem_filter.mpr ⟨present, mappable⟩) isLast
      by_cases here : entry.generated.line = generated.line
      · rw [if_pos here] at near
        have sameLine := (UInt32.sub_left_inj 1).mpr here
        refine .inl ⟨entry, near, answersBy_of_leadsTo? present mappable named ?_⟩
        exact answer.trans (if_pos sameLine)
      · rw [if_neg here] at near
        have otherLine := mt (UInt32.sub_left_inj 1).mp here
        exact .inr ⟨near, answer.trans (if_neg otherLine)⟩

end

/-! ## Built maps -/

/-- How a built map serves the calls that added its entries, of which those are accepted that
can be mapped. -/
structure FindsNearest (file : Option Text) (calls : List Entry) : Prop where
  /-- A call is accepted if it has a source and both its lines count from one. -/
  accepts : ∀ call : Entry, call.isMappable = true ↔
    (∃ source, call.original.source = some source) ∧
      1 ≤ call.generated.line ∧ 1 ≤ call.original.line
  /-- Each accepted call adds a mapping. -/
  size : (build file calls).size = (calls.filter Entry.isMappable).length
  /-- Without a call that is not accepted the map is the same. -/
  rejects : ∀ before call after, calls = before ++ call :: after → call.isMappable = false →
    build file calls = build file (before ++ after)
  /-- A place is answered for by the one entry that is nearest to it on its line, if there is
  any up to it. -/
  answers : ∀ generated,
    (∃ entry, (∀ other, Entry.IsNearest (calls.filter Entry.isMappable) generated other ↔
          other = entry) ∧
        (build file calls).AnswersBy generated entry) ∨
      Entry.NoneUpTo (calls.filter Entry.isMappable) generated ∧
        (build file calls).originalPosition? generated = none
  /-- There is no line of number zero. -/
  lineZero : ∀ column, (build file calls).originalPosition? ⟨0, column⟩ = none
  /-- Only the entries on its line matter to a place. -/
  elsewhere : ∀ others generated,
    (build file calls).sources.length ≤ UInt32.size →
      (build file others).sources.length ≤ UInt32.size →
        (∀ entry, entry.generated.line = generated.line →
          (entry ∈ calls.filter Entry.isMappable ↔ entry ∈ others.filter Entry.isMappable)) →
          (build file calls).originalPosition? generated =
            (build file others).originalPosition? generated

/-- Calls that are not accepted leave no trace in a map. -/
theorem build_filter (file : Option Text) (calls : List Entry) :
    build file (calls.filter Entry.isMappable) = build file calls := by
  unfold build
  simp only [List.filter_filter, Bool.and_self]

/-- Entries on the same line make the same entries nearest. -/
theorem Entry.IsNearest.of_sameLine
    {entries others : List Entry}
    {generated : GeneratedPosition}
    {entry : Entry}
    (nearest : IsNearest entries generated entry)
    (same : ∀ entry, entry.generated.line = generated.line →
      (entry ∈ entries ↔ entry ∈ others)) :
    IsNearest others generated entry where
  mem := (same entry nearest.line).mp nearest.mem
  line := nearest.line
  column_le := nearest.column_le
  last := fun other among here =>
    nearest.last other ((same other here).mpr among) here

/-- An entry that is nearest to a place is up to it. -/
theorem Entry.IsNearest.not_noneUpTo
    {entries : List Entry}
    {generated : GeneratedPosition}
    {entry : Entry}
    (nearest : IsNearest entries generated entry) :
    ¬NoneUpTo entries generated :=
  fun none => UInt32.not_le.mpr (none entry nearest.mem nearest.line) nearest.column_le

/-- A map built of accepted entries at different places finds the nearest one to each place on
its line, and nothing if there is none. -/
theorem build_finds_nearest
    (file : Option Text)
    {calls : List Entry}
    (apart : (calls.filter Entry.isMappable).Pairwise fun left right =>
      left.generated ≠ right.generated) :
    FindsNearest file calls where
  accepts := Entry.isMappable_iff
  size := by
    rw [← build_filter, size_build fun entry accepted => (List.mem_filter.mp accepted).2]
  rejects := by
    rintro before call after rfl rejected
    rw [← build_filter, ← build_filter file (before ++ after), List.filter_append,
      List.filter_append, List.filter_cons_of_neg (by simp [rejected])]
  answers := by
    intro generated
    rcases originalPosition?_build_cases file calls generated with ⟨entry, nearest, answers⟩ | none
    · refine .inl ⟨entry, fun other => ⟨fun nearestToo => ?_, ?_⟩, answers⟩
      · exact nearestToo.unique apart nearest
      · rintro rfl
        exact nearest
    · exact .inr none
  lineZero := fun column => if_pos rfl
  elsewhere := by
    intro others generated few fewToo same
    have back : ∀ entry : Entry, entry.generated.line = generated.line →
        (entry ∈ others.filter Entry.isMappable ↔ entry ∈ calls.filter Entry.isMappable) :=
      fun entry here => (same entry here).symm
    rcases originalPosition?_build_cases file calls generated with
      ⟨entry, nearest, source, isSource, answer⟩ | ⟨none, answer⟩
    · rcases originalPosition?_build_cases file others generated with
        ⟨other, nearestToo, sourceToo, isSourceToo, answerToo⟩ | ⟨noneToo, -⟩
      · obtain rfl := (nearestToo.of_sameLine back).unique apart nearest
        rw [answer, answerToo, isSource few, isSourceToo fewToo]
      · exact absurd noneToo (nearest.of_sameLine same).not_noneUpTo
    · rcases originalPosition?_build_cases file others generated with
        ⟨other, nearestToo, -⟩ | ⟨-, answerToo⟩
      · exact absurd none (nearestToo.of_sameLine back).not_noneUpTo
      · rw [answer, answerToo]

theorem FindsNearest.answersBy
    {file : Option Text}
    {calls : List Entry}
    {generated : GeneratedPosition}
    {entry : Entry}
    (finds : FindsNearest file calls)
    (nearest : Entry.IsNearest (calls.filter Entry.isMappable) generated entry) :
    (build file calls).AnswersBy generated entry := by
  rcases finds.answers generated with ⟨other, only, answers⟩ | ⟨none, -⟩
  · obtain rfl := (only entry).mp nearest
    exact answers
  · exact absurd none nearest.not_noneUpTo

/-- Calls out of order, one of them without a source. On the last line that a word can number
one mapping has no original column. -/
def scatteredCalls : List Entry :=
  [ ⟨⟨0xFFFFFFFF, 7⟩, ⟨some "b.less".toList, 2, 4⟩⟩, ⟨⟨1, 3⟩, ⟨none, 1, 0⟩⟩,
    ⟨⟨0xFFFFFFFF, 2⟩, ⟨some "a.less".toList, 9, absent⟩⟩,
    ⟨⟨1, 0⟩, ⟨some "a.less".toList, 0xFFFFFFFF, 1⟩⟩ ]

theorem build_finds_nearest_scattered :
    (scatteredCalls.filter Entry.isMappable).Pairwise
        (fun left right => left.generated ≠ right.generated) ∧
      FindsNearest none scatteredCalls ∧
      (build none scatteredCalls).originalPosition? ⟨0xFFFFFFFF, 0xFFFFFFFF⟩ =
        some ⟨some "b.less".toList, 2, 4⟩ ∧
      (build none scatteredCalls).originalPosition? ⟨0xFFFFFFFF, 6⟩ = none ∧
      (build none scatteredCalls).originalPosition? ⟨1, 5⟩ =
        some ⟨some "a.less".toList, 0xFFFFFFFF, 1⟩ := by
  have apart : (scatteredCalls.filter Entry.isMappable).Pairwise
      (fun left right => left.generated ≠ right.generated) := by decide
  have finds := build_finds_nearest none apart
  have few : (build none scatteredCalls).sources.length ≤ UInt32.size := by decide
  have nearLast : Entry.IsNearest (scatteredCalls.filter Entry.isMappable)
      ⟨0xFFFFFFFF, 0xFFFFFFFF⟩ scatteredCalls[0] := ⟨by decide, rfl, by decide, by decide⟩
  have nearHidden : Entry.IsNearest (scatteredCalls.filter Entry.isMappable)
      ⟨0xFFFFFFFF, 6⟩ scatteredCalls[2] := ⟨by decide, rfl, by decide, by decide⟩
  have nearFirst : Entry.IsNearest (scatteredCalls.filter Entry.isMappable)
      ⟨1, 5⟩ scatteredCalls[3] := ⟨by decide, rfl, by decide, by decide⟩
  obtain ⟨last, isLast, lastAnswer⟩ := finds.answersBy nearLast
  obtain ⟨hidden, -, hiddenAnswer⟩ := finds.answersBy nearHidden
  obtain ⟨first, isFirst, firstAnswer⟩ := finds.answersBy nearFirst
  rw [isLast few] at lastAnswer
  rw [isFirst few] at firstAnswer
  exact ⟨apart, finds, lastAnswer, hiddenAnswer, firstAnswer⟩

end SourceMap
end StyleTypings
