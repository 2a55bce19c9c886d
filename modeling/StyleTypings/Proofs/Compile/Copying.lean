import StyleTypings.Proofs.Compile.Layout
import StyleTypings.Proofs.Compile.Units
import StyleTypings.Proofs.Stylesheet.Parsing

/-!
# What is copied of a unit

The imports of a unit lie in its text one after the other, so they cut it into
pieces that end on character boundaries. Every piece of every unit of a linked
sheet is placed, and each offset of a unit that lies in none of its imports lies
in one of them.
-/

namespace StyleTypings

namespace ImportRule

/-- Imports lie in a text one after the other from an offset on. -/
def AllFit (text : Text) (low : Nat) : List ImportRule → Prop
  | [] => True
  | rule :: rest =>
      rule.span.Fits text low text.byteSize ∧ AllFit text rule.span.stop rest

theorem AllFit.lower
    {text : Text}
    {low low' : Nat}
    {rules : List ImportRule}
    (fit : AllFit text low rules)
    (lower : low' ≤ low) :
    AllFit text low' rules := by
  cases rules with
  | nil => trivial
  | cons rule rest => exact ⟨fit.1.mono lower (Nat.le_refl _), fit.2⟩

/-- An import covers the bytes of its node. -/
theorem span_of_ofNode?
    {node : Node}
    {rule : ImportRule}
    (isImport : ofNode? node = some rule) :
    rule.span = node.span := by
  unfold ofNode? at isImport
  cases named : atRule? node with
  | none =>
      rw [named] at isImport
      exact absurd isImport nofun
  | some found =>
      obtain ⟨name, params, span⟩ := found
      have covers : span = node.span := by
        cases node with
        | atBlock => cases named; rfl
        | atStatement => cases named; rfl
        | _ => exact absurd named nofun
      simp only [named, bind, Option.bind] at isImport
      split at isImport
      · split at isImport
        · exact absurd isImport nofun
        · simp only at isImport
          split at isImport
          · exact absurd isImport nofun
          · exact Option.some.inj isImport ▸ covers
      · exact absurd isImport nofun

/-- The imports among nodes that fit fit. -/
theorem allFit_filterMap
    {text : Text}
    {low : Nat}
    {nodes : List Node}
    (fit : Node.AllFit text low text.byteSize nodes) :
    AllFit text low (nodes.filterMap ofNode?) := by
  induction nodes generalizing low with
  | nil => trivial
  | cons node rest inductionHypothesis =>
      have span := fit.1.span
      have later := inductionHypothesis fit.2
      cases isImport : ofNode? node with
      | none =>
          rw [List.filterMap_cons_none isImport]
          exact later.lower (Nat.le_trans span.low_le (Nat.le_of_lt span.start_lt_stop))
      | some rule =>
          rw [List.filterMap_cons_some isImport]
          rw [← span_of_ofNode? isImport] at span later
          exact ⟨span, later⟩

end ImportRule

namespace SourceUnit

/-- The nodes of a unit begin at ascending offsets of its text, and its imports
lie in it one after the other. -/
structure Sound (unit : SourceUnit) : Prop where
  starts_eq : unit.starts = unit.nodes.map fun node => node.span.start
  ascend : Node.Ascend unit.text 0 unit.text.byteSize unit.starts
  imports : ImportRule.AllFit unit.text 0 unit.imports

/-- The unit of a file is sound. -/
theorem sound_of_ofFile
    {path : Path}
    {source : Text}
    {unit : SourceUnit}
    (parsed : ofFile path source = .ok unit) :
    unit.Sound := by
  refine ⟨starts_of_ofFile parsed, ?_, ?_⟩
  all_goals rw [(ofFile_eq parsed).2]
  · exact Parser.ascend_parse _
  · exact ImportRule.allFit_filterMap (Parser.allFit_parse _)

/-- An offset that no import of a unit covers. -/
def Keeps (unit : SourceUnit) (offset : Nat) : Prop :=
  ∀ rule ∈ unit.imports, offset < rule.span.start ∨ rule.span.stop ≤ offset

end SourceUnit

namespace Placement

/-- A placement is cut from a sound unit on character boundaries. -/
structure Cut (placement : Placement) : Prop where
  sound : placement.unit.Sound
  starts : placement.unit.text.Boundary placement.range.start
  stops : placement.unit.text.Boundary placement.range.stop
  ordered : placement.range.start ≤ placement.range.stop

/-- An offset of the unit lies in the piece that was copied. -/
def Covers (placement : Placement) (unit : SourceUnit) (offset : Nat) : Prop :=
  placement.unit = unit ∧ placement.range.start ≤ offset ∧ offset < placement.range.stop

end Placement

namespace LinkedSheet

/-- The pieces of a unit and of the sheets imported in it are cut well. -/
theorem Links.cut
    {world : World}
    {options : ImportOptions}
    {unit : SourceUnit}
    {rules : List ImportRule}
    {cursor : Nat}
    {seen : List Path}
    {linked : Linked}
    (links : Links world options unit rules cursor seen (.ok linked))
    (sound : unit.Sound)
    (fit : ImportRule.AllFit unit.text cursor rules)
    (boundary : unit.text.Boundary cursor)
    (root : Path)
    (bundle : Bundle) :
    unit.text.Boundary linked.cursor ∧
      ∀ placement ∈ Bundle.placementsOfPieces root unit bundle linked.pieces,
        placement.Cut := by
  induction links using Links.inductionOk generalizing bundle with
  | nil unit cursor seen => exact ⟨boundary, nofun⟩
  | @again unit rule rest cursor seen target linked _ _ _ inductionHypothesis =>
      have before : (⟨unit, ⟨cursor, rule.span.start⟩, bundle.css.byteSize⟩ :
          Placement).Cut :=
        ⟨sound, boundary, fit.1.solid.boundary, fit.1.low_le⟩
      obtain ⟨ends, others⟩ := inductionHypothesis sound fit.2 fit.1.ends
        (bundle.copy root unit ⟨cursor, rule.span.start⟩)
      refine ⟨ends, fun placement present => ?_⟩
      rcases List.mem_cons.mp present with rfl | later
      · exact before
      · exact others placement later
  | @fresh unit imported rule rest cursor seen target source inner linked _ _ _ parsed _ _
      withinHypothesis othersHypothesis =>
      have before : (⟨unit, ⟨cursor, rule.span.start⟩, bundle.css.byteSize⟩ :
          Placement).Cut :=
        ⟨sound, boundary, fit.1.solid.boundary, fit.1.low_le⟩
      have importedSound := SourceUnit.sound_of_ofFile parsed
      let copied := bundle.copy root unit ⟨cursor, rule.span.start⟩
      obtain ⟨innerEnds, inside⟩ := withinHypothesis importedSound importedSound.imports
        (Text.Boundary.zero _) copied
      obtain ⟨ends, others⟩ := othersHypothesis sound fit.2 fit.1.ends
        (Bundle.addSheet root copied (inner.toSheet imported)).endLine
      have tail (base : Nat) : (⟨imported, tailOf imported inner.cursor, base⟩ :
          Placement).Cut :=
        ⟨importedSound, innerEnds, Text.Boundary.size _, innerEnds.le_byteSize⟩
      refine ⟨ends, fun placement present => ?_⟩
      rcases List.mem_cons.mp present with rfl | later
      · exact before
      · rcases List.mem_append.mp later with within | outside
        · rcases List.mem_append.mp within with piece | last
          · exact inside placement piece
          · rw [List.mem_singleton.mp last]
            exact tail _
        · exact others placement outside

/-- Every offset outside the imports of a unit lies in one of its pieces, up to
the last import and behind it. -/
theorem Links.covers
    {world : World}
    {options : ImportOptions}
    {unit : SourceUnit}
    {rules : List ImportRule}
    {cursor : Nat}
    {seen : List Path}
    {linked : Linked}
    (links : Links world options unit rules cursor seen (.ok linked))
    (root : Path)
    (bundle : Bundle)
    {offset : Nat}
    (reached : cursor ≤ offset)
    (kept : ∀ rule ∈ rules, offset < rule.span.start ∨ rule.span.stop ≤ offset)
    (early : offset < linked.cursor) :
    ∃ placement ∈ Bundle.placementsOfPieces root unit bundle linked.pieces,
      placement.Covers unit offset := by
  induction links using Links.inductionOk generalizing bundle with
  | nil unit cursor seen => exact absurd early (by simpa using reached)
  | @again unit rule rest cursor seen target linked _ _ _ inductionHypothesis =>
      rcases kept rule List.mem_cons_self with before | behind
      · exact ⟨_, List.mem_cons_self, rfl, reached, before⟩
      · obtain ⟨placement, present, covers⟩ := inductionHypothesis
          (bundle.copy root unit ⟨cursor, rule.span.start⟩) behind
          (fun other among => kept other (List.mem_cons_of_mem _ among)) early
        exact ⟨placement, List.mem_cons_of_mem _ present, covers⟩
  | @fresh unit imported rule rest cursor seen target source inner linked _ _ _ _ _ _ _
      othersHypothesis =>
      rcases kept rule List.mem_cons_self with before | behind
      · exact ⟨_, List.mem_cons_self, rfl, reached, before⟩
      · let copied := bundle.copy root unit ⟨cursor, rule.span.start⟩
        obtain ⟨placement, present, covers⟩ := othersHypothesis
          (Bundle.addSheet root copied (inner.toSheet imported)).endLine behind
          (fun other among => kept other (List.mem_cons_of_mem _ among)) early
        exact ⟨placement, List.mem_cons_of_mem _ (List.mem_append_right _ present), covers⟩

/-- The sheet of a unit places every offset outside the imports of the unit. -/
theorem Links.covers_toSheet
    {world : World}
    {options : ImportOptions}
    {unit : SourceUnit}
    {seen : List Path}
    {linked : Linked}
    (links : Links world options unit unit.imports 0 seen (.ok linked))
    (root : Path)
    (bundle : Bundle)
    {offset : Nat}
    (kept : unit.Keeps offset)
    (inside : offset < unit.text.byteSize) :
    ∃ placement ∈ Bundle.placements root bundle (linked.toSheet unit),
      placement.Covers unit offset := by
  rcases Nat.lt_or_ge offset linked.cursor with early | late
  · obtain ⟨placement, present, covers⟩ :=
      links.covers root bundle (Nat.zero_le _) kept early
    exact ⟨placement, List.mem_append_left _ present, covers⟩
  · exact ⟨_, List.mem_append_right _ List.mem_cons_self, rfl, late, inside⟩

/-- The sheets imported in a unit place every offset outside the imports of
their units. -/
theorem Links.covers_units
    {world : World}
    {options : ImportOptions}
    {unit : SourceUnit}
    {rules : List ImportRule}
    {cursor : Nat}
    {seen : List Path}
    {linked : Linked}
    (links : Links world options unit rules cursor seen (.ok linked))
    (root : Path)
    (bundle : Bundle)
    {other : SourceUnit}
    (entered : other ∈ unitsOfPieces linked.pieces)
    {offset : Nat}
    (kept : other.Keeps offset)
    (inside : offset < other.text.byteSize) :
    ∃ placement ∈ Bundle.placementsOfPieces root unit bundle linked.pieces,
      placement.Covers other offset := by
  induction links using Links.inductionOk generalizing bundle with
  | nil unit cursor seen => exact absurd entered nofun
  | @again unit rule rest cursor seen target linked _ _ _ inductionHypothesis =>
      obtain ⟨placement, present, covers⟩ := inductionHypothesis
        (bundle.copy root unit ⟨cursor, rule.span.start⟩) entered
      exact ⟨placement, List.mem_cons_of_mem _ present, covers⟩
  | @fresh unit imported rule rest cursor seen target source inner linked _ _ _ _ within _
      withinHypothesis othersHypothesis =>
      let copied := bundle.copy root unit ⟨cursor, rule.span.start⟩
      rcases List.mem_append.mp entered with first | later
      · have placed : ∃ placement ∈ Bundle.placements root copied (inner.toSheet imported),
            placement.Covers other offset := by
          rcases List.mem_cons.mp first with rfl | deeper
          · exact within.covers_toSheet root copied kept inside
          · obtain ⟨placement, present, covers⟩ := withinHypothesis copied deeper
            exact ⟨placement, List.mem_append_left _ present, covers⟩
        obtain ⟨placement, present, covers⟩ := placed
        exact ⟨placement, List.mem_cons_of_mem _ (List.mem_append_left _ present), covers⟩
      · obtain ⟨placement, present, covers⟩ := othersHypothesis
          (Bundle.addSheet root copied (inner.toSheet imported)).endLine later
        exact ⟨placement, List.mem_cons_of_mem _ (List.mem_append_right _ present), covers⟩

mutual

/-- What is placed of a sheet is cut from its units. -/
theorem unit_mem_of_placements
    (root : Path)
    (bundle : Bundle) :
    (sheet : LinkedSheet) → ∀ placement ∈ bundle.placements root sheet,
      placement.unit ∈ sheet.units
  | .sheet unit pieces tail => by
      intro placement present
      rcases List.mem_append.mp present with piece | last
      · rcases unit_mem_of_placementsOfPieces root unit bundle pieces placement piece with
          own | deeper
        · exact own ▸ List.mem_cons_self
        · exact List.mem_cons_of_mem unit deeper
      · rw [List.mem_singleton.mp last]
        exact List.mem_cons_self

/-- What is placed of pieces is cut from their unit and those imported in it. -/
theorem unit_mem_of_placementsOfPieces
    (root : Path)
    (unit : SourceUnit)
    (bundle : Bundle) :
    (pieces : List (Span × Option LinkedSheet)) →
      ∀ placement ∈ Bundle.placementsOfPieces root unit bundle pieces,
        placement.unit = unit ∨ placement.unit ∈ unitsOfPieces pieces
  | [] => nofun
  | (range, none) :: rest => by
      intro placement present
      rcases List.mem_cons.mp present with rfl | later
      · exact .inl rfl
      · exact unit_mem_of_placementsOfPieces root unit _ rest placement later
  | (range, some inner) :: rest => by
      intro placement present
      rcases List.mem_cons.mp present with rfl | later
      · exact .inl rfl
      · rcases List.mem_append.mp later with within | outside
        · exact .inr (List.mem_append_left _
            (unit_mem_of_placements root _ inner placement within))
        · rcases unit_mem_of_placementsOfPieces root unit _ rest placement outside with
            own | deeper
          · exact .inl own
          · exact .inr (List.mem_append_right _ deeper)

end

/-- All placements of a linked file are cut well, and each offset outside the
imports of one of its units is placed. -/
theorem LinksFile.placements
    {world : World}
    {options : ImportOptions}
    {path : Path}
    {source : Text}
    {sheet : LinkedSheet}
    (links : LinksFile world options path source (.ok sheet))
    (root : Path)
    (bundle : Bundle) :
    (∀ placement ∈ bundle.placements root sheet, placement.Cut) ∧
      ∀ unit ∈ sheet.units, ∀ offset < unit.text.byteSize, unit.Keeps offset →
        ∃ placement ∈ bundle.placements root sheet, placement.Covers unit offset := by
  obtain ⟨unit, linked, parsed, imported, rfl⟩ := links.exists_linked
  have sound := SourceUnit.sound_of_ofFile parsed
  obtain ⟨ends, cut⟩ := imported.cut sound sound.imports (Text.Boundary.zero _) root bundle
  constructor
  · intro placement present
    rcases List.mem_append.mp present with piece | last
    · exact cut placement piece
    · rw [List.mem_singleton.mp last]
      exact ⟨sound, ends, Text.Boundary.size _, ends.le_byteSize⟩
  · intro other among offset inside kept
    rcases List.mem_cons.mp among with rfl | deeper
    · exact imported.covers_toSheet root bundle kept inside
    · obtain ⟨placement, present, covers⟩ :=
        imported.covers_units root bundle deeper kept inside
      exact ⟨placement, List.mem_append_left _ present, covers⟩

end LinkedSheet
end StyleTypings
