import StyleTypings.Compile.Bundle
import StyleTypings.Proofs.Compile.Units

/-!
# How often a file is put into a bundle

Files are told apart by the components of their paths as written. A file is
therefore put into a bundle once for each spelling by which it is reached, and
at most once exactly if no two units with different components spell out one
place. A full stop in front of a path and a detour over `..` are spellings of
their own, so a file may well be there twice.
-/

namespace StyleTypings
namespace Native

open LinkedSheet

/-- Every compilation ends as linking does and leaves its world alone. -/
theorem run_compile
    (world : World)
    (options : CompileOptions)
    (source : Text) :
    ∃ outcome,
      LinksFile world options.imports options.filename source outcome ∧
        (compile options source).run world =
          (outcome.map (outputOf options), world) := by
  have links := run_link world options.imports options.filename source
  refine ⟨_, links.2, ?_⟩
  unfold compile
  rw [Action.run_bind, links.1]
  cases ((link options.imports options.filename source).run world).1 <;> rfl

/-- No place is linked more than once exactly if all paths of one place have the
same components. -/
theorem nodup_placeIn_iff
    {world : World}
    {options : ImportOptions}
    {path : Path}
    {source : Text}
    {sheet : LinkedSheet}
    (links : LinksFile world options path source (.ok sheet)) :
    (sheet.units.map (·.placeIn world)).Nodup ↔
      ∀ left ∈ sheet.units, ∀ right ∈ sheet.units,
        left.placeIn world = right.placeIn world →
          left.path.components = right.path.components := by
  have once := links.nodup_components
  constructor
  · intro places left isLeft right isRight same
    rw [List.inj_on_of_nodup_map places isLeft isRight same]
  · intro spelled
    refine (List.nodup_map_iff_inj_on (List.Nodup.of_map _ once)).mpr
      fun left isLeft right isRight same => ?_
    exact List.inj_on_of_nodup_map once isLeft isRight (spelled left isLeft right isRight same)

/-- Files that are reached by absolute paths which never go up are linked once
each. -/
theorem nodup_placeIn_of_isPlain
    {world : World}
    {options : ImportOptions}
    {path : Path}
    {source : Text}
    {sheet : LinkedSheet}
    (links : LinksFile world options path source (.ok sheet))
    (plain : ∀ unit ∈ sheet.units, unit.path.IsPlain) :
    (sheet.units.map (·.placeIn world)).Nodup :=
  (nodup_placeIn_iff links).mpr fun left isLeft right isRight same =>
    (plain left isLeft).components_eq_of_ofPath_eq (plain right isRight) same

/-- Every compilation of a file ends, and if it succeeds, each unit in it is
that of the file to which its path resolves. No file is there more than once
exactly if all units of one place have a path of the same components. -/
theorem units_once_iff
    (world : World)
    (options : CompileOptions)
    (source : Text)
    (entry : world.files.read world.cwd options.filename = .ok source) :
    ∃ outcome,
      LinksFile world options.imports options.filename source outcome ∧
        (compile options source).run world =
          (outcome.map (outputOf options), world) ∧
        ∀ sheet, outcome = .ok sheet →
          (∀ unit ∈ sheet.units, unit.StandsIn world ∧
              world.files.resolve world.cwd unit.path = .ok (unit.placeIn world)) ∧
            ((sheet.units.map (·.placeIn world)).Nodup ↔
              ∀ left ∈ sheet.units, ∀ right ∈ sheet.units,
                left.placeIn world = right.placeIn world →
                  left.path.components = right.path.components) := by
  obtain ⟨outcome, links, ran⟩ := run_compile world options source
  refine ⟨outcome, links, ran, ?_⟩
  rintro sheet rfl
  refine ⟨fun unit among => ?_, nodup_placeIn_iff links⟩
  have stands := links.standsIn entry unit among
  exact ⟨stands, stands.resolve_eq⟩

/-! ## A file with two spellings -/

/-- Two imports of one file, the second with a full stop in front. -/
def respelled : Text :=
  "@import \"a.css\";\n@import \"./a.css\";"

/-- A world with that style sheet and the file it imports. -/
def respelledWorld : World :=
  .ofFiles
    ⟨[(["main.css".toList], .file (.text respelled) false),
      (["a.css".toList], .file (.text ".a {}\n".toList) false)]⟩
    [] (fun _ => .failed [])

/-- The compilation of that style sheet. -/
def respelledOptions : CompileOptions :=
  ⟨"main.css", ⟨.none, []⟩, false⟩

/-- The unit of that style sheet. -/
def respelledUnit : SourceUnit :=
  { path := "main.css"
    text := respelled
    starts := [0, 17]
    imports := [⟨"a.css", ⟨0, 16⟩⟩, ⟨"./a.css", ⟨17, 35⟩⟩] }

/-- The unit of the imported file for one spelling of its path. -/
def importedUnit (path : Path) : SourceUnit :=
  { path
    text := ".a {}\n"
    starts := [0]
    imports := [] }

theorem ok_of_toOption
    {ε α : Type}
    {result : Except ε α}
    {value : α}
    (succeeds : result.toOption = some value) :
    result = .ok value := by
  cases result with
  | error problem => exact absurd succeeds nofun
  | ok other => rw [Option.some.inj succeeds]

/-- The sheet of the imported file for one spelling of its path. -/
def importedSheet (path : Path) : LinkedSheet :=
  .sheet (importedUnit path) [] ⟨0, 6⟩

/-- The linked style sheet. -/
def respelledSheet : LinkedSheet :=
  .sheet respelledUnit
    [(⟨0, 0⟩, some (importedSheet "a.css")), (⟨16, 17⟩, some (importedSheet "./a.css"))]
    ⟨35, 35⟩

/-- Linking the style sheet enters the file twice. -/
theorem links_respelled :
    LinksFile respelledWorld respelledOptions.imports "main.css" respelled
      (.ok respelledSheet) := by
  have parsed : SourceUnit.ofFile "main.css" respelled = .ok respelledUnit :=
    ok_of_toOption (by decide +kernel)
  have content (path : Path)
      (leads : path = "a.css" ∨ path = "./a.css") :
      respelledWorld.files.read respelledWorld.cwd path = .ok ".a {}\n".toList ∧
        SourceUnit.ofFile path ".a {}\n".toList = .ok (importedUnit path) := by
    rcases leads with rfl | rfl
    · exact ⟨rfl, ok_of_toOption (by decide +kernel)⟩
    · exact ⟨rfl, ok_of_toOption (by decide +kernel)⟩
  have first : target? respelledWorld respelledOptions.imports respelledUnit
      ⟨"a.css", ⟨0, 16⟩⟩ = some "a.css" := by decide +kernel
  have second : target? respelledWorld respelledOptions.imports respelledUnit
      ⟨"./a.css", ⟨17, 35⟩⟩ = some "./a.css" := by decide +kernel
  have unseen : hasSeen ["a.css", "main.css"] "./a.css" = false := by decide +kernel
  have later : Links respelledWorld respelledOptions.imports respelledUnit
      [⟨"./a.css", ⟨17, 35⟩⟩] 16 ["a.css", "main.css"] _ :=
    .fresh second unseen (content _ (.inr rfl)).1 (content _ (.inr rfl)).2 (.nil _ _ _)
      (.nil respelledUnit 35 _)
  exact .parsed parsed <| .fresh first (by decide +kernel) (content _ (.inl rfl)).1
    (content _ (.inl rfl)).2 (.nil _ _ _) later

/-- The file is put into the bundle for each of its two spellings. -/
theorem respelled_twice :
    respelledWorld.files.read respelledWorld.cwd respelledOptions.filename =
        .ok respelled ∧
      (compile respelledOptions respelled).run respelledWorld =
          (.ok (outputOf respelledOptions respelledSheet), respelledWorld) ∧
        (outputOf respelledOptions respelledSheet).css = ".a {}\n\n.a {}\n".toList ∧
        ¬ (respelledSheet.units.map (·.placeIn respelledWorld)).Nodup := by
  obtain ⟨outcome, links, ran⟩ := run_compile respelledWorld respelledOptions respelled
  obtain rfl := links.unique links_respelled
  exact ⟨rfl, ran, by decide +kernel, by decide +kernel⟩

theorem units_once_respelled :
    respelledWorld.files.read respelledWorld.cwd respelledOptions.filename =
        .ok respelled ∧
      ∃ outcome,
        LinksFile respelledWorld respelledOptions.imports respelledOptions.filename
            respelled outcome ∧
          ∀ sheet, outcome = .ok sheet → ∀ unit ∈ sheet.units,
            unit.StandsIn respelledWorld := by
  obtain ⟨outcome, links, -, units⟩ :=
    units_once_iff respelledWorld respelledOptions respelled rfl
  exact ⟨rfl, outcome, links, fun sheet linked unit among =>
    ((units sheet linked).1 unit among).1⟩

end Native
end StyleTypings
