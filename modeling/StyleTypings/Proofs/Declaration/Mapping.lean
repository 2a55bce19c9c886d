import Mathlib.Data.List.Nodup
import Mathlib.Data.List.Perm.Subperm
import StyleTypings.Declaration.Map
import StyleTypings.Proofs.SourceMap.Building

/-!
# Where the map of a declaration leads

Every rendered line is that of one class, and no two of them are the same line
of the declaration. The map of a declaration therefore leads from a line to the
position of its class, and from the line of a class without a position nowhere.
-/

namespace StyleTypings

/-- The generated position of a line. -/
def DeclarationLine.generated (line : DeclarationLine) : GeneratedPosition :=
  ⟨line.line.toUInt32, line.column.toUInt32⟩

namespace Declaration

/-- The lines of a declaration are those of some classes, each on a line of its
own. -/
structure Lined (classes : List NamedClass) (declaration : Declaration) : Prop where
  index_lt : ∀ line ∈ declaration.lines, line.index < classes.length
  line_pos : ∀ line ∈ declaration.lines, 0 < line.line
  line_le : ∀ line ∈ declaration.lines, line.line ≤ classes.length + 1
  column_le : ∀ line ∈ declaration.lines, line.column ≤ namedColumn
  length_le : declaration.lines.length ≤ classes.length
  once : (declaration.lines.map (·.line)).Nodup

/-- Numbers counted on from a start. -/
theorem map_zipIdx_add {α : Type} (items : List α) (start : Nat) :
    (items.zipIdx.map fun entry => entry.2 + start) = List.range' start items.length := by
  calc (items.zipIdx.map fun entry => entry.2 + start)
      = (items.zipIdx.map Prod.snd).map (start + ·) := by
        rw [List.map_map]
        exact List.map_congr_left fun entry _ => Nat.add_comm entry.2 start
    _ = List.range' start items.length := by
        rw [List.zipIdx_map_snd, List.map_add_range', Nat.add_zero]

/-- Numbers counted on from a start are different. -/
theorem nodup_zipIdx_add {α : Type} (items : List α) (start : Nat) :
    (items.zipIdx.map fun entry => entry.2 + start).Nodup := by
  rw [map_zipIdx_add]
  exact List.nodup_range' 1

theorem lines_renderNamed (classes : List NamedClass) :
    (renderNamed classes).lines =
      (kept classes).zipIdx.map fun entry =>
        ⟨entry.1.2, entry.2 + 1, namedColumn⟩ := rfl

theorem lines_renderDefault (classes : List NamedClass) :
    (renderDefault classes).lines =
      classes.zipIdx.map fun entry => ⟨entry.2, entry.2 + 2, propertyColumn⟩ := rfl

theorem lined_renderNamed (classes : List NamedClass) :
    (renderNamed classes).Lined classes := by
  have fewer : (kept classes).length ≤ classes.length := by
    apply Nat.le_trans (List.length_filter_le _ _)
    rw [List.length_zipIdx]
  have numbered : ∀ line ∈ (renderNamed classes).lines,
      line.index < classes.length ∧ 0 < line.line ∧ line.line ≤ classes.length := by
    intro line present
    rw [lines_renderNamed] at present
    obtain ⟨entry, among, rfl⟩ := List.mem_map.mp present
    have listed := (List.mem_filter.mp (List.fst_mem_of_mem_zipIdx among)).1
    have place := List.snd_lt_of_mem_zipIdx among
    have index := List.snd_lt_of_mem_zipIdx listed
    refine ⟨index, Nat.succ_pos _, ?_⟩
    simp only
    omega
  refine ⟨?_, ?_, ?_, ?_, ?_, ?_⟩
  · exact fun line present => (numbered line present).1
  · exact fun line present => (numbered line present).2.1
  · exact fun line present => Nat.le_succ_of_le (numbered line present).2.2
  · intro line present
    rw [lines_renderNamed] at present
    obtain ⟨entry, -, rfl⟩ := List.mem_map.mp present
    exact Nat.le_refl _
  · rw [lines_renderNamed, List.length_map, List.length_zipIdx]
    exact fewer
  · rw [lines_renderNamed, List.map_map]
    exact nodup_zipIdx_add (kept classes) 1

theorem lined_renderDefault (classes : List NamedClass) :
    (renderDefault classes).Lined classes := by
  have numbered : ∀ line ∈ (renderDefault classes).lines,
      line.index < classes.length ∧ line.line = line.index + 2 := by
    intro line present
    rw [lines_renderDefault] at present
    obtain ⟨entry, among, rfl⟩ := List.mem_map.mp present
    exact ⟨List.snd_lt_of_mem_zipIdx among, rfl⟩
  refine ⟨?_, ?_, ?_, ?_, ?_, ?_⟩
  · exact fun line present => (numbered line present).1
  · intro line present
    have bounds := numbered line present
    omega
  · intro line present
    have bounds := numbered line present
    omega
  · intro line present
    rw [lines_renderDefault] at present
    obtain ⟨entry, -, rfl⟩ := List.mem_map.mp present
    exact Nat.le_of_ble_eq_true rfl
  · rw [lines_renderDefault, List.length_map, List.length_zipIdx]
  · rw [lines_renderDefault, List.map_map]
    exact nodup_zipIdx_add classes 2

/-- Only without classes there is nothing to render. -/
theorem render?_eq_none_iff {classes : List NamedClass} {exportType : ExportType} :
    render? classes exportType = none ↔ classes = [] := by
  unfold render?
  cases classes with
  | nil => exact ⟨fun _ => rfl, fun _ => rfl⟩
  | cons item rest =>
      rw [List.isEmpty_cons, if_neg nofun]
      cases exportType with
      | named => exact ⟨nofun, nofun⟩
      | default => exact ⟨nofun, nofun⟩

/-- The lines of a rendered declaration are those of its classes. -/
theorem lined_of_render?
    {classes : List NamedClass}
    {exportType : ExportType}
    {declaration : Declaration}
    (rendered : render? classes exportType = some declaration) :
    declaration.Lined classes := by
  unfold render? at rendered
  split at rendered
  · exact absurd rendered nofun
  · cases exportType with
    | named => exact Option.some.inj rendered ▸ lined_renderNamed classes
    | default => exact Option.some.inj rendered ▸ lined_renderDefault classes

/-! ## Lookups -/

/-- The number of a line is a word. -/
theorem Lined.toNat_line
    {classes : List NamedClass}
    {declaration : Declaration}
    (lined : declaration.Lined classes)
    (few : classes.length + 1 < UInt32.size)
    {line : DeclarationLine}
    (present : line ∈ declaration.lines) :
    line.line.toUInt32.toNat = line.line := by
  have bound := lined.line_le line present
  exact UInt32.toNat_ofNat_of_lt' (by omega)

/-- The column of a line is a word. -/
theorem Lined.toNat_column
    {classes : List NamedClass}
    {declaration : Declaration}
    (lined : declaration.Lined classes)
    {line : DeclarationLine}
    (present : line ∈ declaration.lines) :
    line.column.toUInt32.toNat = line.column := by
  have bound := lined.column_le line present
  exact UInt32.toNat_ofNat_of_lt' (Nat.lt_of_le_of_lt bound (by decide))

/-- The lines of a declaration are numbered by words. -/
def HasWords (declaration : Declaration) : Prop :=
  ∀ line ∈ declaration.lines, line.line < UInt32.size

/-- The lines of few classes are numbered by words. -/
theorem Lined.hasWords
    {classes : List NamedClass}
    {declaration : Declaration}
    (lined : declaration.Lined classes)
    (few : classes.length + 1 < UInt32.size) :
    declaration.HasWords :=
  fun line present => Nat.lt_of_le_of_lt (lined.line_le line present) few

theorem HasWords.toNat_line
    {declaration : Declaration}
    (words : declaration.HasWords)
    {line : DeclarationLine}
    (present : line ∈ declaration.lines) :
    line.line.toUInt32.toNat = line.line :=
  UInt32.toNat_ofNat_of_lt' (words line present)

/-- Lines of one number are one line. -/
theorem Lined.eq_of_toUInt32_eq
    {classes : List NamedClass}
    {declaration : Declaration}
    (lined : declaration.Lined classes)
    (words : declaration.HasWords)
    {left right : DeclarationLine}
    (isLeft : left ∈ declaration.lines)
    (isRight : right ∈ declaration.lines)
    (same : left.line.toUInt32 = right.line.toUInt32) :
    left = right := by
  have numbers := congrArg UInt32.toNat same
  rw [words.toNat_line isLeft, words.toNat_line isRight] at numbers
  exact List.inj_on_of_nodup_map lined.once isLeft isRight numbers

theorem Lined.toUInt32_ne_zero
    {classes : List NamedClass}
    {declaration : Declaration}
    (lined : declaration.Lined classes)
    (words : declaration.HasWords)
    {line : DeclarationLine}
    (present : line ∈ declaration.lines) :
    line.line.toUInt32 ≠ 0 := by
  intro zero
  have word := words.toNat_line present
  have positive := lined.line_pos line present
  rw [zero, UInt32.toNat_zero] at word
  omega

/-- There are no more lines than words. -/
theorem Lined.length_lines_le
    {classes : List NamedClass}
    {declaration : Declaration}
    (lined : declaration.Lined classes)
    (words : declaration.HasWords) :
    declaration.lines.length ≤ UInt32.size := by
  have within : declaration.lines.map (·.line) ⊆ List.range UInt32.size := by
    intro number present
    obtain ⟨line, among, rfl⟩ := List.mem_map.mp present
    exact List.mem_range.mpr (words line among)
  have count := (List.Nodup.subperm lined.once within).length_le
  rwa [List.length_map, List.length_range] at count

theorem entryOf?_eq_some
    {classes : List NamedClass}
    {stylesheetFile : Text}
    {line : DeclarationLine}
    {entry : SourceMap.Entry} :
    entryOf? classes stylesheetFile line = some entry ↔
      ∃ item position, classes[line.index]? = some item ∧
        item.position = some position ∧
        entry =
          { generated := line.generated
            original :=
              { position with
                source := some (position.source.getD stylesheetFile) } } := by
  unfold entryOf?
  constructor
  · intro made
    obtain ⟨item, found, rest⟩ := Option.bind_eq_some_iff.mp made
    obtain ⟨position, known, same⟩ := Option.bind_eq_some_iff.mp rest
    exact ⟨item, position, found, known, (Option.some.inj same).symm⟩
  · rintro ⟨item, position, found, known, rfl⟩
    simp only [found, known, bind, Option.bind]
    rfl

/-- The map leads from a line to the position of its class. -/
theorem Lined.originalPosition?_toSourceMap
    {classes : List NamedClass}
    {declaration : Declaration}
    (lined : declaration.Lined classes)
    (words : declaration.HasWords)
    (declarationFile stylesheetFile : Text)
    {line : DeclarationLine}
    {item : NamedClass}
    {position : OriginalPosition}
    (present : line ∈ declaration.lines)
    (found : classes[line.index]? = some item)
    (known : item.position = some position)
    (originalLine : position.line ≠ 0)
    (originalColumn : position.column ≠ SourceMap.absent) :
    (declaration.toSourceMap classes declarationFile stylesheetFile).originalPosition?
        line.generated =
      some { position with source := some (position.source.getD stylesheetFile) } := by
  let entries := declaration.lines.filterMap (entryOf? classes stylesheetFile)
  let entry : SourceMap.Entry :=
    { generated := line.generated
      original := { position with source := some (position.source.getD stylesheetFile) } }
  have listed : entry ∈ entries :=
    List.mem_filterMap.mpr
      ⟨line, present, entryOf?_eq_some.mpr ⟨item, position, found, known, rfl⟩⟩
  have count : entries.length ≤ UInt32.size := by
    have fewer : entries.length ≤ declaration.lines.length :=
      List.length_filterMap_le _ _
    exact Nat.le_trans fewer (lined.length_lines_le words)
  have numbered := lined.toUInt32_ne_zero words present
  have mappable : entry.isMappable = true := by
    simp [SourceMap.Entry.isMappable, entry, DeclarationLine.generated, numbered,
      originalLine]
  have alone : ∀ other ∈ entries, other.generated = entry.generated → other = entry := by
    intro other among same
    obtain ⟨line', present', made⟩ := List.mem_filterMap.mp among
    obtain ⟨item', position', found', known', rfl⟩ := entryOf?_eq_some.mp made
    obtain rfl := lined.eq_of_toUInt32_eq words present' present
      (congrArg GeneratedPosition.line same)
    obtain rfl := Option.some.inj (found'.symm.trans found)
    obtain rfl := Option.some.inj (known'.symm.trans known)
    rfl
  exact SourceMap.originalPosition?_build count listed mappable originalColumn alone

/-- The map of a declaration is read back with the same answers. -/
theorem exists_decoded
    (declaration : Declaration)
    (classes : List NamedClass)
    (declarationFile stylesheetFile : Text) :
    ∃ map,
      SourceMap.ofJson
          (declaration.toSourceMap classes declarationFile stylesheetFile).toJson =
        .ok map ∧
        ∀ generated, map.originalPosition? generated =
          (declaration.toSourceMap classes declarationFile stylesheetFile).originalPosition?
            generated := by
  obtain ⟨map, decoded, -, answers, -⟩ :=
    (SourceMap.plain_build (some declarationFile)
      (declaration.lines.filterMap (entryOf? classes stylesheetFile))).exists_decoded
  exact ⟨map, decoded, answers⟩

/-- The map leads nowhere from the line of a class without a position. -/
theorem Lined.originalPosition?_toSourceMap_eq_none
    {classes : List NamedClass}
    {declaration : Declaration}
    (lined : declaration.Lined classes)
    (words : declaration.HasWords)
    (declarationFile stylesheetFile : Text)
    {line : DeclarationLine}
    {item : NamedClass}
    (present : line ∈ declaration.lines)
    (found : classes[line.index]? = some item)
    (unknown : item.position = none) :
    (declaration.toSourceMap classes declarationFile stylesheetFile).originalPosition?
        line.generated = none := by
  refine SourceMap.originalPosition?_build_eq_none fun entry among same => ?_
  obtain ⟨line', present', made⟩ := List.mem_filterMap.mp among
  obtain ⟨item', position', found', known', rfl⟩ := entryOf?_eq_some.mp made
  obtain rfl := lined.eq_of_toUInt32_eq words present' present same
  obtain rfl := Option.some.inj (found'.symm.trans found)
  rw [unknown] at known'
  exact absurd known' nofun

end Declaration
end StyleTypings
