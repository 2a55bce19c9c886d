import Mathlib.Data.List.Basic
import StyleTypings.Proofs.SourceMap.Document

/-!
# Built source maps

A built map has one mapping for each entry that can be mapped, and no others. An
entry whose generated position no other entry has is found again there, and
nothing is found on a line without entries.
-/

namespace StyleTypings
namespace SourceMap

/-- A word short of the largest one has a next. -/
theorem succ_ne_zero_of_lt
    {word : UInt32}
    (short : word.toNat + 1 < UInt32.size) :
    word + 1 ≠ 0 := by
  intro zero
  have values := congrArg UInt32.toNat zero
  rw [UInt32.toNat_add, UInt32.toNat_one, UInt32.toNat_zero,
    Nat.mod_eq_of_lt short] at values
  omega

theorem ne_absent_of_lt
    {word : UInt32}
    (short : word.toNat + 1 < UInt32.size) :
    word ≠ absent := by
  rintro rfl
  exact absurd short (by decide)

/-- A built map has no more sources than entries. -/
theorem length_sources_build_le (file : Option Text) (entries : List Entry) :
    (build file entries).sources.length ≤ entries.length :=
  Nat.le_trans (Text.length_eraseDups_le _) <|
    Nat.le_trans (List.length_filterMap_le _ _) (List.length_filter_le _ _)

/-- The mappings of a built map are those of the entries that can be mapped. -/
theorem mem_mappings_build
    {file : Option Text}
    {entries : List Entry}
    {mapping : Mapping} :
    mapping ∈ (build file entries).mappings ↔
      ∃ entry ∈ entries, entry.isMappable = true ∧
        ∃ source, entry.original.source = some source ∧
          mapping =
            entry.toMapping ((build file entries).sources.idxOf source).toUInt32 := by
  have listed : mapping ∈ (build file entries).mappings ↔
      mapping ∈ (entries.filter Entry.isMappable).filterMap
        (Entry.mapping? (build file entries).sources) := List.mem_mergeSort
  rw [listed, List.mem_filterMap]
  constructor
  · rintro ⟨entry, among, made⟩
    obtain ⟨present, mappable⟩ := List.mem_filter.mp among
    unfold Entry.mapping? at made
    rw [if_pos mappable] at made
    obtain ⟨source, named, rfl⟩ := Option.map_eq_some_iff.mp made
    exact ⟨entry, present, mappable, source, named, rfl⟩
  · rintro ⟨entry, present, mappable, source, named, rfl⟩
    refine ⟨entry, List.mem_filter.mpr ⟨present, mappable⟩, ?_⟩
    unfold Entry.mapping?
    rw [if_pos mappable, named]
    rfl

/-- A mapping lies at the generated position of its entry. -/
theorem Entry.generated_eq
    {left right : Entry}
    {source other : UInt32}
    (lines : (left.toMapping source).line = (right.toMapping other).line)
    (columns : (left.toMapping source).column = (right.toMapping other).column) :
    left.generated = right.generated := by
  rcases left with ⟨⟨leftLine, leftColumn⟩, leftOriginal⟩
  rcases right with ⟨⟨rightLine, rightColumn⟩, rightOriginal⟩
  obtain rfl := (UInt32.sub_left_inj 1).mp lines
  obtain rfl : leftColumn = rightColumn := columns
  rfl

/-- Entries that can all be mapped have one mapping each. -/
theorem size_build
    {file : Option Text}
    {entries : List Entry}
    (mappable : ∀ entry ∈ entries, entry.isMappable = true) :
    (build file entries).size = entries.length := by
  have all : entries.filter Entry.isMappable = entries := List.filter_eq_self.mpr mappable
  have mapped (sources : List Text) :
      (entries.filterMap (Entry.mapping? sources)).length = entries.length := by
    rw [List.length_filterMap_eq_countP, List.countP_eq_length]
    intro entry present
    have isMappable := mappable entry present
    have named := isMappable
    simp only [Entry.isMappable, Bool.and_eq_true] at named
    unfold Entry.mapping?
    rw [if_pos isMappable, Option.isSome_map]
    exact named.1.1
  unfold size build
  simp only [all]
  rw [List.length_mergeSort, mapped]

/-- Entries at different places have different mappings. -/
theorem nodup_mappings_build
    {file : Option Text}
    {entries : List Entry}
    (apart : entries.Pairwise fun left right => left.generated ≠ right.generated) :
    (build file entries).mappings.Nodup := by
  refine (List.mergeSort_perm _ _).nodup_iff.mpr ?_
  refine (apart.filter _).filterMap _ ?_
  intro left right elsewhere mapping made other madeToo same
  unfold Entry.mapping? at made madeToo
  split at made
  · split at madeToo
    · obtain ⟨source, -, rfl⟩ := Option.map_eq_some_iff.mp made
      obtain ⟨sourceToo, -, rfl⟩ := Option.map_eq_some_iff.mp madeToo
      exact elsewhere (Entry.generated_eq (congrArg Mapping.line same)
        (congrArg Mapping.column same))
    · exact absurd madeToo nofun
  · exact absurd made nofun

/-- A map of entries at different places is read back as it is. -/
theorem ofJson_toJson_build_of_apart
    {file : Option Text}
    {entries : List Entry}
    (apart : entries.Pairwise fun left right => left.generated ≠ right.generated) :
    ofJson (build file entries).toJson = .ok (build file entries) := by
  have kept := Mapping.dropRepeats_of_nodup
    (fun mapping _ => (Option.some_ne_none mapping).symm)
    (@nodup_mappings_build file entries apart)
  rw [(plain_build file entries).ofJson_toJson, kept]

/-- An entry that can be mapped names a source of the map. -/
theorem mem_sources_build
    {file : Option Text}
    {entries : List Entry}
    {entry : Entry}
    {source : Text}
    (present : entry ∈ entries)
    (mappable : entry.isMappable = true)
    (named : entry.original.source = some source) :
    source ∈ (build file entries).sources :=
  List.mem_eraseDups.mpr <|
    List.mem_filterMap.mpr ⟨entry, List.mem_filter.mpr ⟨present, mappable⟩, named⟩

/-- The mapping of an entry leads to the entry's own original position. -/
theorem leadsTo?_toMapping
    {file : Option Text}
    {entries : List Entry}
    {entry : Entry}
    {source : Text}
    (few : entries.length ≤ UInt32.size)
    (known : source ∈ (build file entries).sources)
    (named : entry.original.source = some source)
    (line : entry.original.line ≠ 0)
    (column : entry.original.column ≠ absent)
    (generated : UInt32) :
    (build file entries).leadsTo?
        (entry.toMapping ((build file entries).sources.idxOf source).toUInt32) generated =
      some entry.original := by
  have inside := List.idxOf_lt_length_iff.mpr known
  have bound := length_sources_build_le file entries
  have index : (((build file entries).sources.idxOf source).toUInt32).toNat =
      (build file entries).sources.idxOf source :=
    UInt32.toNat_ofNat_of_lt' (by omega)
  have present : ¬ (entry.original.line - 1 = absent ∨ entry.original.column = absent) := by
    rintro (lineAbsent | columnAbsent)
    · apply line
      have back := congrArg (· + 1) lineAbsent
      simpa [absent] using back
    · exact column columnAbsent
  have resolved : resolveSource (build file entries).sourceRoot source = source := rfl
  unfold leadsTo? Entry.toMapping
  simp only [bind, Option.bind, if_neg present, index, Bool.false_eq_true, if_false,
    List.getElem?_idxOf known, Option.map_some, resolved]
  rcases entry with ⟨_, original⟩
  rcases original with ⟨_, originalLine, originalColumn⟩
  obtain rfl := named
  simp

/-- An entry is found at its generated position if no other entry lies there. -/
theorem originalPosition?_build
    {file : Option Text}
    {entries : List Entry}
    {entry : Entry}
    (few : entries.length ≤ UInt32.size)
    (present : entry ∈ entries)
    (mappable : entry.isMappable = true)
    (column : entry.original.column ≠ absent)
    (unique : ∀ other ∈ entries, other.generated = entry.generated → other = entry) :
    (build file entries).originalPosition? entry.generated = some entry.original := by
  have parts := mappable
  simp only [Entry.isMappable, Bool.and_eq_true, bne_iff_ne] at parts
  obtain ⟨⟨hasSource, generatedLine⟩, originalLine⟩ := parts
  obtain ⟨source, named⟩ := Option.isSome_iff_exists.mp hasSource
  let mapping := entry.toMapping ((build file entries).sources.idxOf source).toUInt32
  have listed : mapping ∈ (build file entries).mappings :=
    mem_mappings_build.mpr ⟨entry, present, mappable, source, named, rfl⟩
  have alone : ∀ other ∈ (build file entries).mappings,
      other.line = mapping.line → other.column = mapping.column → other = mapping := by
    intro other among sameLine sameColumn
    obtain ⟨otherEntry, otherPresent, -, otherSource, otherNamed, rfl⟩ :=
      mem_mappings_build.mp among
    obtain rfl := unique otherEntry otherPresent (Entry.generated_eq sameLine sameColumn)
    obtain rfl := Option.some.inj (named.symm.trans otherNamed)
    rfl
  have governs := governing?_of_unique listed alone
  have known : source ∈ (build file entries).sources :=
    mem_sources_build present mappable named
  have leads := leadsTo?_toMapping few known named originalLine column
    entry.generated.column
  unfold originalPosition?
  rw [if_neg generatedLine]
  have here : (build file entries).governing? (entry.generated.line - 1)
      entry.generated.column = some mapping := governs
  simp only [here, bind, Option.bind]
  exact (if_pos rfl).trans leads

/-- Nothing is found on a line that no entry lies on. -/
theorem originalPosition?_build_eq_none
    {file : Option Text}
    {entries : List Entry}
    {generated : GeneratedPosition}
    (elsewhere : ∀ entry ∈ entries, entry.generated.line ≠ generated.line) :
    (build file entries).originalPosition? generated = none := by
  unfold originalPosition?
  split
  · rfl
  · simp only [bind, Option.bind]
    cases governs :
        (build file entries).governing? (generated.line - 1) generated.column with
    | none => rfl
    | some mapping =>
        obtain ⟨entry, present, -, _, -, rfl⟩ :=
          mem_mappings_build.mp (mem_of_governing? governs)
        apply if_neg
        intro sameLine
        exact elsewhere entry present ((UInt32.sub_left_inj 1).mp sameLine)

end SourceMap
end StyleTypings
