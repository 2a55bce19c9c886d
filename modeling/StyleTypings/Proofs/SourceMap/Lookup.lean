import Mathlib.Data.List.TakeWhile
import StyleTypings.SourceMap.Basic

/-!
# Looking up mappings

Mappings are ordered by their generated places. The governing mapping of a place
does not change when mappings equal to their predecessor are dropped, and where
only one mapping lies at a place that mapping governs it.
-/

namespace StyleTypings
namespace Mapping

/-- Before a place: on an earlier line, or further left on its line. -/
theorem isBefore_iff (mapping : Mapping) (line column : UInt32) :
    mapping.isBefore line column = true ↔
      mapping.line.toNat < line.toNat ∨
        (mapping.line.toNat = line.toNat ∧
          mapping.column.toNat < column.toNat) := by
  simp [isBefore, UInt32.lt_iff_toNat_lt, ← UInt32.toNat_inj]

theorem isAt_iff (mapping : Mapping) (line column : UInt32) :
    mapping.isAt line column = true ↔
      mapping.line = line ∧ mapping.column = column := by
  simp [isAt]

/-- The order of places: by line and then by column. -/
theorem precedes_iff (left right : Mapping) :
    left.precedes right = true ↔
      left.line.toNat < right.line.toNat ∨
        (left.line.toNat = right.line.toNat ∧
          left.column.toNat ≤ right.column.toNat) := by
  rw [precedes, Bool.not_eq_true', ← Bool.not_eq_true, isBefore_iff]
  omega

theorem precedes_trans
    (first second third : Mapping)
    (left : first.precedes second = true)
    (right : second.precedes third = true) :
    first.precedes third = true := by
  rw [precedes_iff] at left right ⊢
  omega

theorem precedes_total (left right : Mapping) :
    (left.precedes right || right.precedes left) = true := by
  rw [Bool.or_eq_true, precedes_iff, precedes_iff]
  omega

/-- The lines of ordered mappings ascend. -/
theorem line_le_of_precedes
    {left right : Mapping}
    (ordered : left.precedes right = true) :
    left.line.toNat ≤ right.line.toNat := by
  rw [precedes_iff] at ordered
  omega

/-- Sorting puts mappings in the order of their places. -/
theorem pairwise_mergeSort (mappings : List Mapping) :
    (mappings.mergeSort precedes).Pairwise (precedes · ·) :=
  List.pairwise_mergeSort precedes_trans precedes_total mappings

/-- Drops each mapping that equals the one before it. -/
def dropRepeats (previous : Option Mapping) : List Mapping → List Mapping
  | [] => []
  | mapping :: rest =>
      if previous = some mapping then
        dropRepeats previous rest
      else
        mapping :: dropRepeats (some mapping) rest

theorem sublist_dropRepeats (previous : Option Mapping) (mappings : List Mapping) :
    (dropRepeats previous mappings).Sublist mappings := by
  induction mappings generalizing previous with
  | nil => exact List.Sublist.slnil
  | cons mapping rest inductionHypothesis =>
      rw [dropRepeats]
      split
      · exact (inductionHypothesis previous).cons mapping
      · exact (inductionHypothesis (some mapping)).cons_cons mapping

/-- Ordered mappings without repeats need no sorting. -/
theorem mergeSort_dropRepeats
    {mappings : List Mapping}
    (ordered : mappings.Pairwise (precedes · ·)) :
    (dropRepeats none mappings).mergeSort precedes = dropRepeats none mappings :=
  List.mergeSort_of_pairwise (ordered.sublist (sublist_dropRepeats none mappings))

/-- Where no mapping repeats, none is dropped. -/
theorem dropRepeats_of_nodup
    {previous : Option Mapping}
    {mappings : List Mapping}
    (differs : ∀ mapping ∈ mappings, previous ≠ some mapping)
    (nodup : mappings.Nodup) :
    dropRepeats previous mappings = mappings := by
  induction mappings generalizing previous with
  | nil => rfl
  | cons mapping rest inductionHypothesis =>
      obtain ⟨absent, later⟩ := List.nodup_cons.mp nodup
      rw [dropRepeats, if_neg (differs mapping List.mem_cons_self), inductionHypothesis _ later]
      rintro other present same
      exact absent (Option.some.inj same ▸ present)

theorem dropRepeats_append
    (previous : Option Mapping)
    (front back : List Mapping) :
    dropRepeats previous (front ++ back) =
      dropRepeats previous front ++
        dropRepeats (front.getLast?.or previous) back := by
  induction front generalizing previous with
  | nil => simp [dropRepeats]
  | cons mapping rest inductionHypothesis =>
      have last : (mapping :: rest).getLast?.or previous =
          rest.getLast?.or (some mapping) := by
        rw [List.getLast?_cons]
        cases rest.getLast? <;> rfl
      rw [List.cons_append, dropRepeats, dropRepeats, last]
      by_cases repeated : previous = some mapping
      · rw [if_pos repeated, if_pos repeated, inductionHypothesis, repeated]
      · rw [if_neg repeated, if_neg repeated, inductionHypothesis, List.cons_append]

/-- A predecessor unequal to the first mapping does not matter. -/
theorem dropRepeats_of_head?_ne
    {previous : Option Mapping}
    {mappings : List Mapping}
    (differs : ∀ mapping, previous = some mapping → mappings.head? ≠ some mapping) :
    dropRepeats previous mappings = dropRepeats none mappings := by
  cases mappings with
  | nil => rfl
  | cons mapping rest =>
      have notRepeated : previous ≠ some mapping := fun repeated =>
        differs mapping repeated rfl
      rw [dropRepeats, dropRepeats, if_neg notRepeated, if_neg nofun]

theorem find?_dropRepeats
    (test : Mapping → Bool)
    (previous : Option Mapping)
    (mappings : List Mapping)
    (refused : ∀ mapping, previous = some mapping → test mapping = false) :
    (dropRepeats previous mappings).find? test = mappings.find? test := by
  induction mappings generalizing previous with
  | nil => rfl
  | cons mapping rest inductionHypothesis =>
      rw [dropRepeats]
      by_cases repeated : previous = some mapping
      · rw [if_pos repeated, inductionHypothesis previous refused, List.find?_cons,
          refused mapping repeated]
      · rw [if_neg repeated, List.find?_cons, List.find?_cons]
        cases passes : test mapping with
        | true => rfl
        | false =>
            apply inductionHypothesis
            rintro other equal
            rw [← Option.some.inj equal, passes]

/-- After a mapping that passes, the last one of the run is the same. -/
theorem getLast?_cons_takeWhile_dropRepeats
    (test : Mapping → Bool)
    (mapping : Mapping)
    (passes : test mapping = true)
    (mappings : List Mapping) :
    (mapping :: (dropRepeats (some mapping) mappings).takeWhile test).getLast? =
      (mapping :: mappings.takeWhile test).getLast? := by
  induction mappings generalizing mapping with
  | nil => rfl
  | cons next rest inductionHypothesis =>
      rw [dropRepeats]
      by_cases repeated : some mapping = some next
      · have equal : mapping = next := Option.some.inj repeated
        subst equal
        rw [if_pos rfl, List.takeWhile_cons_of_pos passes,
          List.getLast?_cons_cons]
        exact inductionHypothesis mapping passes
      · rw [if_neg repeated]
        by_cases nextPasses : test next = true
        · rw [List.takeWhile_cons_of_pos nextPasses,
            List.takeWhile_cons_of_pos nextPasses, List.getLast?_cons_cons,
            List.getLast?_cons_cons]
          exact inductionHypothesis next nextPasses
        · rw [List.takeWhile_cons_of_neg nextPasses,
            List.takeWhile_cons_of_neg nextPasses]

theorem getLast?_takeWhile_dropRepeats
    (test : Mapping → Bool)
    (mappings : List Mapping) :
    ((dropRepeats none mappings).takeWhile test).getLast? =
      (mappings.takeWhile test).getLast? := by
  cases mappings with
  | nil => rfl
  | cons mapping rest =>
      rw [dropRepeats, if_neg nofun]
      by_cases passes : test mapping = true
      · rw [List.takeWhile_cons_of_pos passes, List.takeWhile_cons_of_pos passes]
        exact getLast?_cons_takeWhile_dropRepeats test mapping passes rest
      · rw [List.takeWhile_cons_of_neg passes, List.takeWhile_cons_of_neg passes]

end Mapping

namespace SourceMap

/-- Maps with the same mappings but for repeats, the same sources and the same
source root answer alike. -/
theorem originalPosition?_dropRepeats
    {left right : SourceMap}
    (mappings : left.mappings = Mapping.dropRepeats none right.mappings)
    (sources : left.sources = right.sources)
    (roots : left.sourceRoot = right.sourceRoot)
    (generated : GeneratedPosition) :
    left.originalPosition? generated = right.originalPosition? generated := by
  have governs (line column : UInt32) :
      left.governing? line column = right.governing? line column := by
    unfold governing?
    rw [mappings, Mapping.find?_dropRepeats _ none _ nofun,
      Mapping.getLast?_takeWhile_dropRepeats]
  have leads (mapping : Mapping) (column : UInt32) :
      left.leadsTo? mapping column = right.leadsTo? mapping column := by
    unfold leadsTo?
    rw [sources, roots]
  unfold originalPosition?
  simp only [governs, leads]

/-- The only mapping at a place governs it. -/
theorem governing?_of_unique
    {map : SourceMap}
    {mapping : Mapping}
    (present : mapping ∈ map.mappings)
    (unique : ∀ other ∈ map.mappings,
      other.line = mapping.line → other.column = mapping.column → other = mapping) :
    map.governing? mapping.line mapping.column = some mapping := by
  have stands : (map.mappings.find? (·.isAt mapping.line mapping.column)).isSome := by
    rw [List.find?_isSome]
    exact ⟨mapping, present, (Mapping.isAt_iff _ _ _).mpr ⟨rfl, rfl⟩⟩
  obtain ⟨found, first⟩ := Option.isSome_iff_exists.mp stands
  have passes : found.isAt mapping.line mapping.column = true := by
    simpa using List.find?_some first
  have isAt := (Mapping.isAt_iff _ _ _).mp passes
  have same := unique found (List.mem_of_find?_eq_some first) isAt.1 isAt.2
  unfold governing?
  rw [first, same]

/-- What governs a place is a mapping of the map. -/
theorem mem_of_governing?
    {map : SourceMap}
    {line column : UInt32}
    {mapping : Mapping}
    (governs : map.governing? line column = some mapping) :
    mapping ∈ map.mappings := by
  unfold governing? at governs
  split at governs
  · next found =>
      obtain rfl := Option.some.inj governs
      exact List.mem_of_find?_eq_some found
  · exact (List.takeWhile_sublist _).subset (List.mem_of_getLast? governs)

end SourceMap
end StyleTypings
