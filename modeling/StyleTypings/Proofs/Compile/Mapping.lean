import Mathlib.Data.List.Perm.Subperm
import StyleTypings.Proofs.Compile.Cleaning
import StyleTypings.Proofs.Compile.Copying
import StyleTypings.Proofs.Compile.Once
import StyleTypings.Proofs.SourceMap.Building

/-!
# Where the source map of a bundle leads

The beginnings that a bundle lists ascend, each on a character boundary of the
bundle, so no two of them have the same line and column. The map of a bundle
shorter than `2 ^ 32` bytes therefore leads from each of them to the node it was
copied from.
-/

namespace StyleTypings

namespace Placement

/-- The offset of the bundle that an offset of the unit was copied to. -/
def target (placement : Placement) (offset : Nat) : Nat :=
  placement.base + offset - placement.range.start

/-- An offset that was copied cuts the unit and the bundle in front of the same
text. -/
theorem exists_copied_split
    {css : Text}
    {placement : Placement}
    {offset : Nat}
    (cut : placement.Cut)
    (lies : placement.LiesIn css)
    (boundary : placement.unit.text.Boundary offset)
    (covers : placement.Covers placement.unit offset) :
    ∃ before after front back piece : Text, piece ≠ [] ∧
      placement.unit.text = before ++ (piece ++ after) ∧ before.byteSize = offset ∧
      css = front ++ (piece ++ back) ∧ front.byteSize = placement.target offset := by
  obtain ⟨-, reached, early⟩ := covers
  obtain ⟨before, inside, after, split, beforeSize, insideSize⟩ :=
    cut.starts.exists_split boundary reached
  obtain ⟨before', piece, after', split', beforeSize', pieceSize⟩ :=
    boundary.exists_split cut.stops (Nat.le_of_lt early)
  have whole : (before ++ inside) ++ after = before' ++ (piece ++ after') := by
    rw [List.append_assoc, ← split, ← split']
  have sizes : (before ++ inside).byteSize = before'.byteSize := by
    rw [Text.byteSize_append]
    omega
  obtain ⟨rfl, rfl⟩ := Text.eq_of_byteSize_eq whole sizes
  have text : placement.text = inside ++ piece := by
    have covered := Span.slice_append before (inside ++ piece) after'
    have stop : before.byteSize + (inside ++ piece).byteSize = placement.range.stop := by
      rw [Text.byteSize_append]
      omega
    rw [stop, beforeSize, List.append_assoc, ← split] at covered
    exact covered
  obtain ⟨front, back, rfl, base⟩ := lies
  refine ⟨before ++ inside, after', front ++ inside, back, piece, ?_, split', beforeSize',
    ?_, ?_⟩
  · rintro rfl
    rw [Text.byteSize_nil] at pieceSize
    omega
  · rw [text]
    simp only [List.append_assoc]
  · unfold target
    rw [Text.byteSize_append]
    omega

/-- The beginnings listed for a placement are those of the unit's nodes in it. -/
theorem mem_starts_iff
    {root : Path}
    {placement : Placement}
    {start : CopiedStart}
    (cut : placement.Cut) :
    start ∈ placement.starts root ↔
      ∃ offset ∈ placement.unit.starts, placement.Covers placement.unit offset ∧
        ∃ original, placement.unit.text.IsPlace offset original ∧
          start =
            { generated := placement.target offset
              source := Bundle.sourceName root placement.unit.path
              original } := by
  unfold starts
  rw [List.mem_filterMap]
  constructor
  · rintro ⟨offset, among, copied⟩
    obtain ⟨present, inside⟩ := List.mem_filter.mp among
    simp only [Bool.and_eq_true, decide_eq_true_eq] at inside
    obtain ⟨original, isPlace⟩ := (cut.sound.ascend.solid offset present).boundary.exists_place
    refine ⟨offset, present, ⟨rfl, inside⟩, original, isPlace, ?_⟩
    unfold Bundle.copyStart? at copied
    rw [LineIndex.lineColumnUtf16?_of_isPlace isPlace] at copied
    exact (Option.some.inj copied).symm
  · rintro ⟨offset, present, ⟨-, inside⟩, original, isPlace, rfl⟩
    refine ⟨offset, List.mem_filter.mpr ⟨present, by simpa using inside⟩, ?_⟩
    unfold Bundle.copyStart?
    rw [LineIndex.lineColumnUtf16?_of_isPlace isPlace]
    rfl

/-- The beginnings listed for a placement ascend. -/
theorem pairwise_starts
    {root : Path}
    {placement : Placement}
    (cut : placement.Cut) :
    (placement.starts root).Pairwise fun earlier later =>
      earlier.generated < later.generated := by
  have ordered := cut.sound.ascend.ordered.sublist
    (List.filter_sublist (p := fun start =>
      decide (placement.range.start ≤ start) && decide (start < placement.range.stop)))
  refine List.Pairwise.filterMap _ ?_ (ordered.imp_of_mem (S := fun left right =>
    left < right ∧ placement.range.start ≤ left) ?_)
  · intro left right less first made second madeToo
    unfold Bundle.copyStart? at made madeToo
    obtain ⟨_, -, rfl⟩ := Option.map_eq_some_iff.mp made
    obtain ⟨_, -, rfl⟩ := Option.map_eq_some_iff.mp madeToo
    simp only
    omega
  · intro left right among _ less
    have inside := (List.mem_filter.mp among).2
    simp only [Bool.and_eq_true, decide_eq_true_eq] at inside
    exact ⟨less, inside.1⟩

/-- The beginnings listed for a placement lie in the piece that was copied. -/
theorem bounds_of_mem_starts
    {root : Path}
    {placement : Placement}
    {start : CopiedStart}
    (cut : placement.Cut)
    (present : start ∈ placement.starts root) :
    placement.base ≤ start.generated ∧
      start.generated < placement.base + placement.text.byteSize := by
  obtain ⟨offset, -, ⟨-, reached, early⟩, original, -, rfl⟩ := (mem_starts_iff cut).mp present
  have size := Span.byteSize_slice cut.starts cut.stops cut.ordered
  simp only [target, text, size]
  omega

end Placement

namespace Bundle

/-- The beginnings listed for placements in a row ascend. -/
theorem LaidOut.pairwise_starts
    {css : Text}
    {low high : Nat}
    {placed : List Placement}
    (laid : LaidOut css low high placed)
    (cut : ∀ placement ∈ placed, placement.Cut)
    (root : Path) :
    (placed.flatMap (·.starts root)).Pairwise
        (fun earlier later => earlier.generated < later.generated) ∧
      ∀ start ∈ placed.flatMap (·.starts root), low ≤ start.generated := by
  induction placed generalizing low with
  | nil => exact ⟨.nil, nofun⟩
  | cons placement rest inductionHypothesis =>
      obtain ⟨lower, lies, others⟩ := laid
      have first := cut placement List.mem_cons_self
      obtain ⟨ordered, behind⟩ := inductionHypothesis others
        fun other among => cut other (List.mem_cons_of_mem _ among)
      rw [List.flatMap_cons]
      constructor
      · refine List.pairwise_append.mpr ⟨Placement.pairwise_starts first, ordered, ?_⟩
        intro start present other among
        have here := Placement.bounds_of_mem_starts first present
        have later := behind other among
        omega
      · intro start present
        rcases List.mem_append.mp present with here | later
        · have bounds := Placement.bounds_of_mem_starts first here
          omega
        · have bounds := behind start later
          omega

/-- Each of some placements in a row stands in the text. -/
theorem LaidOut.liesIn
    {css : Text}
    {low high : Nat}
    {placed : List Placement}
    (laid : LaidOut css low high placed) :
    ∀ placement ∈ placed, placement.LiesIn css := by
  induction placed generalizing low with
  | nil => exact nofun
  | cons placement rest inductionHypothesis =>
      intro other present
      rcases List.mem_cons.mp present with rfl | later
      · exact laid.2.1
      · exact inductionHypothesis laid.2.2 other later

/-! ## Maps of ascending beginnings -/

/-- The entry of a beginning whose place in the bundle is known. -/
def entryAt (start : CopiedStart) (place : LineColumn) : SourceMap.Entry :=
  { generated := place.toGenerated
    original :=
      { source := some start.source
        line := start.original.line + 1
        column := start.original.column } }

/-- The beginnings of a bundle ascend and lie inside it on boundaries. -/
structure Marked (bundle : Bundle) : Prop where
  ordered : bundle.copied.Pairwise fun earlier later => earlier.generated < later.generated
  inside : ∀ start ∈ bundle.copied, start.generated < bundle.css.byteSize
  boundary : ∀ start ∈ bundle.copied, bundle.css.Boundary start.generated

theorem mapEntryOf?_of_isPlace
    {css : Text}
    {start : CopiedStart}
    {place : LineColumn}
    (isPlace : css.IsPlace start.generated place) :
    mapEntryOf? css (LineIndex.ofText css) start = some (entryAt start place) := by
  unfold mapEntryOf?
  rw [LineIndex.lineColumnUtf16?_of_isPlace isPlace]
  rfl

/-- The entries of a bundle's map are those of its beginnings. -/
theorem Marked.mem_entries_iff
    {bundle : Bundle}
    (marked : bundle.Marked)
    {entry : SourceMap.Entry} :
    entry ∈ bundle.copied.filterMap
        (mapEntryOf? bundle.css (LineIndex.ofText bundle.css)) ↔
      ∃ start ∈ bundle.copied, ∃ place,
        bundle.css.IsPlace start.generated place ∧ entry = entryAt start place := by
  rw [List.mem_filterMap]
  constructor
  · rintro ⟨start, present, made⟩
    obtain ⟨place, isPlace⟩ := (marked.boundary start present).exists_place
    rw [mapEntryOf?_of_isPlace isPlace] at made
    exact ⟨start, present, place, isPlace, (Option.some.inj made).symm⟩
  · rintro ⟨start, present, place, isPlace, rfl⟩
    exact ⟨start, present, mapEntryOf?_of_isPlace isPlace⟩

/-- Beginnings at different offsets, at most one for each byte. -/
theorem Marked.nodup_generated
    {bundle : Bundle}
    (marked : bundle.Marked) :
    (bundle.copied.map CopiedStart.generated).Nodup ∧
      bundle.copied.length ≤ bundle.css.byteSize := by
  have once : (bundle.copied.map CopiedStart.generated).Nodup :=
    List.pairwise_map.mpr (marked.ordered.imp Nat.ne_of_lt)
  refine ⟨once, ?_⟩
  have among : bundle.copied.map CopiedStart.generated ⊆ List.range bundle.css.byteSize := by
    intro generated present
    obtain ⟨start, isStart, rfl⟩ := List.mem_map.mp present
    exact List.mem_range.mpr (marked.inside start isStart)
  have fewer := (once.subperm among).length_le
  rwa [List.length_map, List.length_range] at fewer

/-- The map of a bundle leads from the place of a beginning to its original. -/
theorem Marked.originalPosition?_toSourceMap
    {bundle : Bundle}
    (marked : bundle.Marked)
    (small : bundle.css.byteSize < UInt32.size)
    (entry : Path)
    {start : CopiedStart}
    {place : LineColumn}
    (present : start ∈ bundle.copied)
    (isPlace : bundle.css.IsPlace start.generated place)
    (line : start.original.line.toNat + 1 < UInt32.size)
    (column : start.original.column.toNat + 1 < UInt32.size) :
    (bundle.toSourceMap entry).originalPosition? place.toGenerated =
      some
        { source := some start.source
          line := start.original.line + 1
          column := start.original.column } := by
  obtain ⟨once, few⟩ := marked.nodup_generated
  have inside := marked.inside start present
  have generated := isPlace.lt_size (by omega)
  have fewEntries := List.length_filterMap_le
    (mapEntryOf? bundle.css (LineIndex.ofText bundle.css)) bundle.copied
  have listed := marked.mem_entries_iff.mpr ⟨start, present, place, isPlace, rfl⟩
  have mappable : (entryAt start place).isMappable = true := by
    simp [SourceMap.Entry.isMappable, entryAt, LineColumn.toGenerated,
      SourceMap.succ_ne_zero_of_lt generated.1, SourceMap.succ_ne_zero_of_lt line]
  have alone : ∀ other ∈ bundle.copied.filterMap
      (mapEntryOf? bundle.css (LineIndex.ofText bundle.css)),
      other.generated = (entryAt start place).generated → other = entryAt start place := by
    intro other among same
    obtain ⟨start', present', place', isPlace', rfl⟩ := marked.mem_entries_iff.mp among
    obtain rfl := LineColumn.toGenerated_inj same
    have offsets := isPlace'.injective small isPlace
    obtain rfl := List.inj_on_of_nodup_map once present' present offsets
    rfl
  have found : (SourceMap.build (some (outputName entry)) (bundle.copied.filterMap
      (mapEntryOf? bundle.css (LineIndex.ofText bundle.css)))).originalPosition?
        (entryAt start place).generated = some (entryAt start place).original :=
    SourceMap.originalPosition?_build (by omega) listed mappable (SourceMap.ne_absent_of_lt column)
      alone
  exact found

/-- The mappings of a bundle's map lie at the places of its beginnings. -/
theorem Marked.mem_mappings_toSourceMap
    {bundle : Bundle}
    (marked : bundle.Marked)
    {entry : Path}
    {mapping : Mapping}
    (present : mapping ∈ (bundle.toSourceMap entry).mappings) :
    ∃ start ∈ bundle.copied, ∃ place, bundle.css.IsPlace start.generated place ∧
      mapping.line = place.line ∧ mapping.column = place.column := by
  obtain ⟨_, among, -, _, -, rfl⟩ := SourceMap.mem_mappings_build.mp present
  obtain ⟨start, isStart, place, isPlace, rfl⟩ := marked.mem_entries_iff.mp among
  refine ⟨start, isStart, place, isPlace, ?_, rfl⟩
  simp [SourceMap.Entry.toMapping, entryAt, LineColumn.toGenerated]

/-- The map of a bundle is read back with the same answers and no mappings besides
its own. -/
theorem exists_decoded (bundle : Bundle) (entry : Path) :
    ∃ map,
      SourceMap.ofJson (bundle.toSourceMap entry).toJson = .ok map ∧
        (∀ generated, map.originalPosition? generated =
          (bundle.toSourceMap entry).originalPosition? generated) ∧
        map.mappings ⊆ (bundle.toSourceMap entry).mappings := by
  obtain ⟨map, decoded, -, answers, fewer⟩ :=
    (SourceMap.plain_build (some (outputName entry)) (bundle.copied.filterMap
      (mapEntryOf? bundle.css (LineIndex.ofText bundle.css)))).exists_decoded
  exact ⟨map, decoded, answers, fewer⟩

/-! ## Bundles put together from nothing -/

/-- The beginnings of a bundle put together from sound units are in order. -/
theorem Grows.marked
    {root : Path}
    {bundle : Bundle}
    {placed : List Placement}
    (grows : Grows root empty bundle placed)
    (cut : ∀ placement ∈ placed, placement.Cut) :
    bundle.Marked := by
  have copied : bundle.copied = placed.flatMap (·.starts root) := by
    rw [grows.copied]
    rfl
  have lies := grows.laid.liesIn
  have ordered := (grows.laid.pairwise_starts cut root).1
  have stands : ∀ start ∈ bundle.copied,
      start.generated < bundle.css.byteSize ∧ bundle.css.Boundary start.generated := by
    intro start present
    rw [copied] at present
    obtain ⟨placement, among, listed⟩ := List.mem_flatMap.mp present
    obtain ⟨offset, isStart, covers, _, -, rfl⟩ :=
      (Placement.mem_starts_iff (cut placement among)).mp listed
    have boundary := ((cut placement among).sound.ascend.solid offset isStart).boundary
    obtain ⟨before, after, front, back, piece, nonempty, -, -, whole, size⟩ :=
      Placement.exists_copied_split (cut placement among) (lies placement among) boundary
        covers
    have positive := Text.byteSize_pos_of_ne_nil nonempty
    refine ⟨?_, front, piece ++ back, whole, size⟩
    rw [whole, Text.byteSize_append, Text.byteSize_append]
    change placement.target offset < _
    omega
  exact
    { ordered := copied ▸ ordered
      inside := fun start present => (stands start present).1
      boundary := fun start present => (stands start present).2 }

/-- The map leads from where a beginning was copied to back to its place in the
unit. -/
theorem Grows.originalPosition?_toSourceMap
    {root : Path}
    {bundle : Bundle}
    {placed : List Placement}
    (grows : Grows root empty bundle placed)
    (cut : ∀ placement ∈ placed, placement.Cut)
    (small : bundle.css.byteSize < UInt32.size)
    (entry : Path)
    {placement : Placement}
    (among : placement ∈ placed)
    {offset : Nat}
    (isStart : offset ∈ placement.unit.starts)
    (covers : placement.Covers placement.unit offset)
    (early : offset + 1 < UInt32.size) :
    ∃ place original,
      bundle.css.IsPlace (placement.target offset) place ∧
        placement.unit.text.IsPlace offset original ∧
        (bundle.toSourceMap entry).originalPosition? place.toGenerated =
          some
            { source := some (sourceName root placement.unit.path)
              line := original.line + 1
              column := original.column } := by
  have marked := grows.marked cut
  have solid := (cut placement among).sound.ascend.solid offset isStart
  obtain ⟨original, isOriginal⟩ := solid.boundary.exists_place
  let start : CopiedStart :=
    ⟨placement.target offset, sourceName root placement.unit.path, original⟩
  have listed : start ∈ bundle.copied := by
    rw [grows.copied]
    refine List.mem_append_right _ (List.mem_flatMap.mpr ⟨placement, among, ?_⟩)
    exact (Placement.mem_starts_iff (cut placement among)).mpr
      ⟨offset, isStart, covers, original, isOriginal, rfl⟩
  obtain ⟨place, isPlace⟩ := (marked.boundary start listed).exists_place
  have words := isOriginal.lt_size early
  exact ⟨place, original, isPlace, isOriginal,
    marked.originalPosition?_toSourceMap small entry listed isPlace words.1 words.2⟩

/-- Every mapping lies where a beginning was copied to. -/
theorem Grows.mem_mappings_toSourceMap
    {root : Path}
    {bundle : Bundle}
    {placed : List Placement}
    (grows : Grows root empty bundle placed)
    (cut : ∀ placement ∈ placed, placement.Cut)
    {entry : Path}
    {mapping : Mapping}
    (present : mapping ∈ (bundle.toSourceMap entry).mappings) :
    ∃ placement ∈ placed, ∃ offset ∈ placement.unit.starts,
      placement.Covers placement.unit offset ∧
        ∃ place, bundle.css.IsPlace (placement.target offset) place ∧
          mapping.line = place.line ∧ mapping.column = place.column := by
  obtain ⟨start, listed, place, isPlace, lines, columns⟩ :=
    (grows.marked cut).mem_mappings_toSourceMap present
  rw [grows.copied] at listed
  obtain ⟨placement, among, isListed⟩ := List.mem_flatMap.mp listed
  obtain ⟨offset, isStart, covers, _, -, rfl⟩ :=
    (Placement.mem_starts_iff (cut placement among)).mp isListed
  exact ⟨placement, among, offset, isStart, covers, place, isPlace, lines, columns⟩

end Bundle
end StyleTypings
