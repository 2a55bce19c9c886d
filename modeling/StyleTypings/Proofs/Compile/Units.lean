import Mathlib.Data.List.Nodup
import StyleTypings.Proofs.Compile.Linking

/-!
# The units of a linked sheet

The units of a linked sheet are its own and those of all sheets in it, in the
order in which they were entered. Each is the file of its path as it stands in
the world. No two of their paths have the same components, since the paths seen
on the way are just these.
-/

namespace StyleTypings

namespace SourceUnit

/-- A unit is what its path and the text of the file say. -/
theorem ofFile_eq
    {path : Path}
    {source : Text}
    {unit : SourceUnit}
    (parsed : ofFile path source = .ok unit) :
    (Parser.parse (cleanText path source)).faults = [] ∧
      unit =
        { path
          text := cleanText path source
          starts :=
            (Parser.parse (cleanText path source)).sheet.descendants.map
              fun node => node.span.start
          imports :=
            (Parser.parse (cleanText path source)).sheet.nodes.filterMap
              ImportRule.ofNode? } := by
  unfold ofFile at parsed
  simp only at parsed
  split at parsed
  · exact absurd parsed nofun
  · next faultless => exact ⟨faultless, (Except.ok.inj parsed).symm⟩

theorem path_of_ofFile
    {path : Path}
    {source : Text}
    {unit : SourceUnit}
    (parsed : ofFile path source = .ok unit) :
    unit.path = path := by
  rw [(ofFile_eq parsed).2]

/-- Every node of a unit, in document order. -/
def nodes (unit : SourceUnit) : List Node :=
  (Parser.parse unit.text).sheet.descendants

theorem starts_of_ofFile
    {path : Path}
    {source : Text}
    {unit : SourceUnit}
    (parsed : ofFile path source = .ok unit) :
    unit.starts = unit.nodes.map fun node => node.span.start := by
  rw [(ofFile_eq parsed).2]
  rfl

theorem text_of_ofFile
    {path : Path}
    {source : Text}
    {unit : SourceUnit}
    (parsed : ofFile path source = .ok unit) :
    unit.text = cleanText path source := by
  rw [(ofFile_eq parsed).2]

/-- A unit is that of a file as it stands in a world. -/
def StandsIn (world : World) (unit : SourceUnit) : Prop :=
  ∃ source,
    world.files.read world.cwd unit.path = .ok source ∧
      ofFile unit.path source = .ok unit

/-- The place that a unit's path spells out. -/
def placeIn (world : World) (unit : SourceUnit) : Place :=
  Place.ofPath world.cwd unit.path

/-- The path of a unit that stands in a world resolves to its place. -/
theorem StandsIn.resolve_eq
    {world : World}
    {unit : SourceUnit}
    (stands : unit.StandsIn world) :
    world.files.resolve world.cwd unit.path = .ok (unit.placeIn world) := by
  obtain ⟨source, content, -⟩ := stands
  exact (FileSystem.read_eq content).1

end SourceUnit

namespace LinkedSheet

mutual

/-- The units of a sheet, its own first. -/
def units : LinkedSheet → List SourceUnit
  | .sheet unit pieces _ => unit :: unitsOfPieces pieces

/-- The units of the sheets among some pieces. -/
def unitsOfPieces : List (Span × Option LinkedSheet) → List SourceUnit
  | [] => []
  | (_, none) :: rest => unitsOfPieces rest
  | (_, some inner) :: rest => inner.units ++ unitsOfPieces rest

end

/-- An import of a file seen before enters no unit. -/
theorem unitsOfPieces_again (range : Span) (linked : Linked) :
    unitsOfPieces (linked.withPiece (range, none)).pieces = unitsOfPieces linked.pieces := rfl

/-- An import of a new file enters its unit and those imported there. -/
theorem unitsOfPieces_fresh (range : Span) (imported : SourceUnit) (inner linked : Linked) :
    unitsOfPieces (linked.withPiece (range, some (inner.toSheet imported))).pieces =
      imported :: (unitsOfPieces inner.pieces ++ unitsOfPieces linked.pieces) := rfl

/-- The paths seen on the way are those of the units. -/
theorem Links.seenAfter_eq
    {world : World}
    {options : ImportOptions}
    {unit : SourceUnit}
    {rules : List ImportRule}
    {cursor : Nat}
    {seen : List Path}
    {linked : Linked}
    (links : Links world options unit rules cursor seen (.ok linked)) :
    linked.seenAfter = ((unitsOfPieces linked.pieces).map (·.path)).reverse ++ seen := by
  induction links using Links.inductionOk with
  | nil unit cursor seen => rfl
  | again _ _ _ inductionHypothesis => exact inductionHypothesis
  | fresh _ _ _ parsed _ _ withinHypothesis othersHypothesis =>
      have entered := SourceUnit.path_of_ofFile parsed
      rw [unitsOfPieces_fresh]
      simp only [Linked.withPiece, othersHypothesis, withinHypothesis, List.map_append,
        List.map_cons, List.reverse_append, List.reverse_cons, entered, List.append_assoc,
        List.singleton_append]

/-- A new path has other components than those seen. -/
theorem components_notMem_of_hasSeen
    {seen : List Path}
    {path : Path}
    (new : hasSeen seen path = false) :
    path.components ∉ seen.map Path.components := by
  intro present
  obtain ⟨old, among, same⟩ := List.mem_map.mp present
  unfold hasSeen at new
  rw [List.any_eq_false] at new
  exact new old among (beq_iff_eq.mpr same)

/-- Paths are seen once each, by components. -/
theorem Links.nodup_seenAfter
    {world : World}
    {options : ImportOptions}
    {unit : SourceUnit}
    {rules : List ImportRule}
    {cursor : Nat}
    {seen : List Path}
    {linked : Linked}
    (links : Links world options unit rules cursor seen (.ok linked))
    (once : (seen.map Path.components).Nodup) :
    (linked.seenAfter.map Path.components).Nodup := by
  induction links using Links.inductionOk with
  | nil unit cursor seen => exact once
  | again _ _ _ inductionHypothesis => exact inductionHypothesis once
  | fresh _ new _ _ _ _ withinHypothesis othersHypothesis =>
      refine othersHypothesis (withinHypothesis ?_)
      rw [List.map_cons, List.nodup_cons]
      exact ⟨components_notMem_of_hasSeen new, once⟩

/-- Every unit entered is that of a file as it stands in the world. -/
theorem Links.standsIn
    {world : World}
    {options : ImportOptions}
    {unit : SourceUnit}
    {rules : List ImportRule}
    {cursor : Nat}
    {seen : List Path}
    {linked : Linked}
    (links : Links world options unit rules cursor seen (.ok linked)) :
    ∀ entered ∈ unitsOfPieces linked.pieces, entered.StandsIn world := by
  induction links using Links.inductionOk with
  | nil unit cursor seen => exact nofun
  | again _ _ _ inductionHypothesis => exact inductionHypothesis
  | @fresh _ _ _ _ _ _ _ source _ _ _ _ content parsed _ _ withinHypothesis
      othersHypothesis =>
      intro entered among
      rw [unitsOfPieces_fresh] at among
      rcases List.mem_cons.mp among with rfl | later
      · have path := SourceUnit.path_of_ofFile parsed
        exact ⟨source, by rw [path]; exact content, by rw [path]; exact parsed⟩
      · rcases List.mem_append.mp later with deeper | behind
        · exact withinHypothesis entered deeper
        · exact othersHypothesis entered behind

/-- The units of a linked file are its own and those of files as they stand in the
world. -/
theorem LinksFile.exists_text
    {world : World}
    {options : ImportOptions}
    {path : Path}
    {source : Text}
    {sheet : LinkedSheet}
    (links : LinksFile world options path source (.ok sheet)) :
    ∀ unit ∈ sheet.units, ∃ text, SourceUnit.ofFile unit.path text = .ok unit ∧
      (unit.path = path ∧ text = source ∨
        world.files.read world.cwd unit.path = .ok text) := by
  obtain ⟨unit, linked, parsed, imported, rfl⟩ := links.exists_linked
  have named := SourceUnit.path_of_ofFile parsed
  intro entered among
  rcases List.mem_cons.mp among with rfl | deeper
  · exact ⟨source, by rw [named]; exact parsed, .inl ⟨named, rfl⟩⟩
  · obtain ⟨text, content, parsedToo⟩ := imported.standsIn entered deeper
    exact ⟨text, parsedToo, .inr content⟩

/-- No two units of a linked file have paths of the same components. -/
theorem LinksFile.nodup_components
    {world : World}
    {options : ImportOptions}
    {path : Path}
    {source : Text}
    {sheet : LinkedSheet}
    (links : LinksFile world options path source (.ok sheet)) :
    (sheet.units.map fun unit => unit.path.components).Nodup := by
  obtain ⟨unit, linked, parsed, imported, rfl⟩ := links.exists_linked
  have once := imported.nodup_seenAfter (by simp)
  rw [imported.seenAfter_eq, List.map_append, List.map_reverse, List.map_map] at once
  change ((unit :: unitsOfPieces linked.pieces).map _).Nodup
  rw [← List.nodup_reverse, List.map_cons, List.reverse_cons,
    SourceUnit.path_of_ofFile parsed]
  exact once

/-- If the text linked is that of the file, all units stand in the world. -/
theorem LinksFile.standsIn
    {world : World}
    {options : ImportOptions}
    {path : Path}
    {source : Text}
    {sheet : LinkedSheet}
    (links : LinksFile world options path source (.ok sheet))
    (entry : world.files.read world.cwd path = .ok source) :
    ∀ unit ∈ sheet.units, unit.StandsIn world := by
  intro unit among
  obtain ⟨text, parsed, ⟨named, rfl⟩ | content⟩ := links.exists_text unit among
  · exact ⟨text, by rw [named]; exact entry, parsed⟩
  · exact ⟨text, content, parsed⟩

end LinkedSheet
end StyleTypings
