import StyleTypings.Proofs.Compile.Mapping

/-!
# Tracing a compiled text back to its files

The source map of a compiled text leads from where a node was copied to back to
the place of the node in the file that it comes from, at whatever depth that file
was imported. Nothing else is mapped. Offsets into a file are 32-bit words, and
the last word stands for a line or column that is absent, so this is said of the
nodes that begin before it.
-/

namespace StyleTypings

/-- A unit is that of a text: of the one to be compiled, or of a file as it
stands in the world. -/
def SourceUnit.ComesFrom
    (world : World)
    (options : CompileOptions)
    (source : Text)
    (unit : SourceUnit)
    (text : Text) : Prop :=
  ofFile unit.path text = .ok unit ∧
    (unit.path = options.filename ∧ text = source ∨
      world.files.read world.cwd unit.path = .ok text)

/-- A map leads from where an offset of a unit was copied to back to its place in
the text that the unit was made from. -/
def Placement.LeadsBack
    (root : Path)
    (css : Text)
    (map : SourceMap)
    (text : Text)
    (offset : Nat)
    (placement : Placement) : Prop :=
  ∃ place original,
    css.IsPlace (placement.target offset) place ∧
      text.IsPlace offset original ∧
      map.originalPosition? place.toGenerated =
        some
          { source := some (Bundle.sourceName root placement.unit.path)
            line := original.line + 1
            column := original.column }

namespace SourceUnit

/-- The offsets listed for a unit are those where its nodes begin. -/
theorem Sound.mem_starts_iff
    {unit : SourceUnit}
    (sound : unit.Sound)
    {offset : Nat} :
    offset ∈ unit.starts ↔ ∃ node ∈ unit.nodes, node.span.start = offset := by
  rw [sound.starts_eq, List.mem_map]

/-- Where a node begins, a unit and the text it was made from have the same
place. -/
theorem isPlace_of_ofFile
    {path : Path}
    {text : Text}
    {unit : SourceUnit}
    (parsed : ofFile path text = .ok unit)
    {offset : Nat}
    (isStart : offset ∈ unit.starts)
    {place : LineColumn}
    (isPlace : unit.text.IsPlace offset place) :
    text.IsPlace offset place := by
  have solid := (sound_of_ofFile parsed).ascend.solid offset isStart
  rw [text_of_ofFile parsed] at solid isPlace
  exact isPlace_of_cleanText solid isPlace

end SourceUnit

namespace Native

open LinkedSheet

/-- A compilation that succeeds gives the output of a linked sheet and leaves its
world alone. -/
theorem exists_sheet_of_compile
    {world after : World}
    {options : CompileOptions}
    {source : Text}
    {output : CompileOutput}
    (compiled : (compile options source).run world = (.ok output, after)) :
    ∃ sheet, LinksFile world options.imports options.filename source (.ok sheet) ∧
      output = outputOf options sheet ∧ after = world := by
  obtain ⟨outcome, links, ran⟩ := run_compile world options source
  obtain ⟨ends, stays⟩ := Prod.mk.inj (ran.symm.trans compiled)
  cases outcome with
  | error problem => exact absurd ends nofun
  | ok sheet => exact ⟨sheet, links, (Except.ok.inj ends).symm, stays.symm⟩

/-- The map of a compiled text leads from each node that was copied back to the
node's own file, and has no other mappings. -/
theorem map_leads_back
    {world after : World}
    {options : CompileOptions}
    {source : Text}
    {output : CompileOutput}
    (wanted : options.sourceMap = true)
    (compiled : (compile options source).run world = (.ok output, after))
    (small : output.css.byteSize < UInt32.size) :
    ∃ sheet json map,
      LinksFile world options.imports options.filename source (.ok sheet) ∧
        output.map = some json ∧
        SourceMap.ofJson json = .ok map ∧
        (∀ unit ∈ sheet.units, ∃ text, unit.ComesFrom world options source text ∧
          ∀ node ∈ unit.nodes,
            (unit.Keeps node.span.start →
              ∃ placement ∈ Bundle.empty.placements (rootOf options.filename) sheet,
                placement.Covers unit node.span.start) ∧
            (node.span.start + 1 < UInt32.size →
              ∀ placement ∈ Bundle.empty.placements (rootOf options.filename) sheet,
                placement.Covers unit node.span.start →
                  placement.LiesIn output.css ∧
                    placement.LeadsBack (rootOf options.filename) output.css map text
                      node.span.start)) ∧
        ∀ mapping ∈ map.mappings,
          ∃ placement ∈ Bundle.empty.placements (rootOf options.filename) sheet,
            placement.unit ∈ sheet.units ∧
              ∃ node ∈ placement.unit.nodes,
                placement.Covers placement.unit node.span.start ∧
                  ∃ place, output.css.IsPlace (placement.target node.span.start) place ∧
                    mapping.line = place.line ∧ mapping.column = place.column := by
  obtain ⟨sheet, links, rfl, -⟩ := exists_sheet_of_compile compiled
  let root := rootOf options.filename
  let bundle := Bundle.ofSheet root sheet
  have grows : Bundle.Grows root .empty bundle (Bundle.empty.placements root sheet) :=
    Bundle.grows_addSheet root .empty sheet
  obtain ⟨cut, covered⟩ := links.placements root .empty
  obtain ⟨map, decoded, answers, fewer⟩ := bundle.exists_decoded options.filename
  have written : (outputOf options sheet).map =
      some (bundle.toSourceMap options.filename).toJson := if_pos wanted
  refine ⟨sheet, _, map, links, written, decoded, ?_, ?_⟩
  · intro unit among
    obtain ⟨text, parsed, comes⟩ := links.exists_text unit among
    refine ⟨text, ⟨parsed, comes⟩, fun node present => ⟨fun kept => ?_, ?_⟩⟩
    · have sound := SourceUnit.sound_of_ofFile parsed
      have isStart := sound.mem_starts_iff.mpr ⟨node, present, rfl⟩
      exact covered unit among _ (sound.ascend.solid _ isStart).lt_byteSize kept
    · rintro early placement isPlaced ⟨rfl, inside⟩
      have isStart := (cut placement isPlaced).sound.mem_starts_iff.mpr ⟨node, present, rfl⟩
      obtain ⟨place, original, isPlace, isOriginal, leads⟩ :=
        grows.originalPosition?_toSourceMap cut small options.filename isPlaced isStart
          ⟨rfl, inside⟩ early
      refine ⟨grows.laid.liesIn placement isPlaced, place, original, isPlace, ?_, ?_⟩
      · exact SourceUnit.isPlace_of_ofFile parsed isStart isOriginal
      · exact (answers _).trans leads
  · intro mapping present
    obtain ⟨placement, isPlaced, offset, isStart, covers, isAt⟩ :=
      grows.mem_mappings_toSourceMap cut (fewer present)
    obtain ⟨node, isNode, rfl⟩ := (cut placement isPlaced).sound.mem_starts_iff.mp isStart
    exact ⟨placement, isPlaced, unit_mem_of_placements root .empty sheet placement isPlaced,
      node, isNode, covers, isAt⟩

/-- The compilation of the style sheet with two imports, with a map. -/
def mappedOptions : CompileOptions :=
  { respelledOptions with sourceMap := true }

theorem map_leads_back_respelled :
    mappedOptions.sourceMap = true ∧
      (compile mappedOptions respelled).run respelledWorld =
          (.ok (outputOf mappedOptions respelledSheet), respelledWorld) ∧
        (outputOf mappedOptions respelledSheet).css.byteSize < UInt32.size ∧
        ∃ sheet json map,
          LinksFile respelledWorld mappedOptions.imports mappedOptions.filename respelled
              (.ok sheet) ∧
            (outputOf mappedOptions respelledSheet).map = some json ∧
            SourceMap.ofJson json = .ok map := by
  obtain ⟨outcome, links, ran⟩ := run_compile respelledWorld mappedOptions respelled
  obtain rfl := links.unique links_respelled
  have small : (outputOf mappedOptions respelledSheet).css.byteSize < UInt32.size := by
    decide +kernel
  obtain ⟨sheet, json, map, linked, written, decoded, -⟩ := map_leads_back rfl ran small
  exact ⟨rfl, ran, small, sheet, json, map, linked, written, decoded⟩

end Native
end StyleTypings
