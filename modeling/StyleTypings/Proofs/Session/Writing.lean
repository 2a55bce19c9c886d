import StyleTypings.Proofs.Compile.Splicing
import StyleTypings.Proofs.Session.Footprint

/-!
# Writing and checking

What the writing of a style sheet leaves is what its check asks for. The artifacts are made of
what was read, and nothing that was read is among what was written, so they are made alike
after the writing: the check passes, and to write again changes nothing.
-/

namespace StyleTypings
namespace Generator

variable {generator : Generator} {world : World} {file : Path}

/-- A style sheet that is not where it should be has no artifacts. -/
theorem exists_place_of_generate
    {artifacts? : Option Artifacts}
    (generated : ((generator.generate file).run world).1 = .ok artifacts?) :
    ∃ place, world.files.resolve world.cwd file = .ok place := by
  cases leads : world.files.resolve world.cwd file with
  | ok place => exact ⟨place, rfl⟩
  | error problem =>
      have unread : world.files.read world.cwd file = .error problem := by
        unfold FileSystem.read FileSystem.entryAt
        rw [leads]
        rfl
      unfold generate classesOf at generated
      simp only [Action.run_bind, LinkedSheet.run_readText, unread] at generated
      cases generated

theorem exists_place_of_writeFile
    (succeeds : ((generator.writeFile file).run world).1 ≠ .failed) :
    ∃ place, world.files.resolve world.cwd file = .ok place := by
  cases generated : ((generator.generate file).run world).1 with
  | ok artifacts? => exact exists_place_of_generate generated
  | error problem =>
      refine absurd ?_ succeeds
      rw [writeFile, Action.run_bind, generated]
      rfl

/-- A style sheet is apart from its own artifacts if what it imports is. -/
theorem isApart_singleton
    (untouched : ∀ path ∈ (generator.generate file).asked world, path ≠ file →
      ∀ artifact ∈ Artifacts.paths file, ¬ world.SamePlace path artifact)
    (leads : ∃ place, world.files.resolve world.cwd file = .ok place) :
    generator.IsApart world [file] file where
  listed := List.mem_cons_self
  leads := leads
  avoids path asked listed isListed artifact among := by
    obtain rfl := List.mem_singleton.mp isListed
    by_cases other : path = listed
    · subst other
      rintro ⟨place, first, second⟩
      obtain ⟨suffix, ending, -, rfl⟩ := World.exists_beside first among second
      have proper := List.ne_nil_of_length_pos (Nat.zero_lt_of_lt (Artifacts.mem_endings ending).2)
      exact Place.beside_ne_ofPath _ _ proper (FileSystem.resolve_eq first)
    · exact untouched path asked other artifact among

/-- A style sheet passes if all that it is to leave is there. -/
theorem not_isStale_of_outputs
    {artifacts? : Option Artifacts}
    (generated : ((generator.generate file).run world).1 = .ok artifacts?)
    (current : ∀ output ∈ generator.outputs world file,
      world.files.read world.cwd output.1 = .ok output.2) :
    ¬ generator.IsStale world file := by
  unfold IsStale
  unfold outputs outputsOf at current
  rw [generated] at current ⊢
  cases artifacts? with
  | none => exact id
  | some artifacts =>
      obtain ⟨declaration, map⟩ := List.forall_mem_cons.mp current
      rintro (differs | ⟨wanted, differs⟩)
      · exact differs declaration
      · rw [if_pos wanted] at map
        exact differs (map _ List.mem_cons_self)

/-- A style sheet that was written passes its check, and to write it again leaves every file
as it is, as long as none of the paths asked about for its imports leads to its own
artifacts. -/
theorem checkFile_after_writeFile
    (native : generator.compiler.kind = .native)
    (untouched : ∀ path ∈ (generator.generate file).asked world, path ≠ file →
      ∀ artifact ∈ Artifacts.paths file, ¬ world.SamePlace path artifact)
    (succeeds : ((generator.writeFile file).run world).1 ≠ .failed) :
    let after := ((generator.writeFile file).run world).2
    let again := (generator.writeFile file).run after
    ((generator.checkFile file).run after).1 = true ∧
      again.1 = ((generator.writeFile file).run world).1 ∧
      ∀ place, again.2.files.find? place = after.files.find? place := by
  intro after again
  have apart := isApart_singleton untouched (exists_place_of_writeFile succeeds)
  have noDirectory := @World.IsArtifact.not_directory world [file]
  have begins := (Action.undisturbed_steady noDirectory (α := WriteOutcome)).begins
  obtain ⟨outcome, changes, leaves, writes⟩ := exists_writes native apart
  have steady (request : Request)
      (made : request ∈ (generator.writeFile file).requests world) :=
    leaves.steady.mem_requests noDirectory made
  have distinct := leaves.changes ▸ writes.distinct
  have isAfter : after = world.afterAll ((generator.writeFile file).requests world) :=
    Action.run_snd _ _
  have near : World.Near (world.IsArtifact [file]) world after :=
    isAfter ▸ World.near_afterAll begins steady
  obtain ⟨⟨artifacts?, generated⟩, complete⟩ := writes.complete (leaves.outcome ▸ succeeds)
  obtain ⟨generatedAgain, -⟩ := (steady_generate native apart).eq_of_near noDirectory near
  have isOutputs : generator.outputs after file = generator.outputs world file := by
    rw [outputs, outputs, generatedAgain]
  refine ⟨?_, ?_, fun place => ?_⟩
  · rw [(checkFile_eq native after file).1]
    have current : ¬ generator.IsStale after file := by
      refine not_isStale_of_outputs (generatedAgain.trans generated) fun output among => ?_
      obtain ⟨place, leads, changed⟩ := complete output (isOutputs ▸ among)
      have found := World.find?_afterAll_of_mem begins steady distinct (leaves.changes ▸ changed)
      rw [← isAfter] at found
      unfold FileSystem.read FileSystem.entryAt
      rw [near.cwd, near.agrees.resolve_eq_ok leads]
      simp only [bind, Except.bind, found]
    simp [current]
  · exact (leaves.steady.eq_of_near noDirectory near).1
  · obtain ⟨-, requests, -⟩ := leaves.steady.eq_of_near noDirectory near
    have isAgain : again.2 = after.afterAll ((generator.writeFile file).requests world) :=
      requests ▸ Action.run_snd _ _
    rw [isAgain, isAfter]
    exact World.find?_afterAll_afterAll begins steady distinct place

/-! ## A style sheet with an import -/

open Native (swallowing swallowingUnit importedUnit importedSheet)

/-- A world with a style sheet, the one that it imports, and one that is not text. -/
def importingWorld : World :=
  .ofFiles
    ⟨[(["main.css".toList], .file (.text swallowing) false),
      (["a.css".toList], .file (.text ".a {}\n".toList) false),
      (["bad.css".toList], .file .binary false)]⟩
    [] fun _ => .failed []

/-- How the style sheet is compiled. -/
def importingOptions : CompileOptions :=
  nativeGenerator.compileOptions "main.css"

/-- The linked style sheet. -/
def importingSheet : LinkedSheet :=
  .sheet swallowingUnit [(⟨0, 0⟩, some (importedSheet "a.css"))] ⟨16, 23⟩

theorem parsed_importing :
    SourceUnit.ofFile "main.css" swallowing = .ok swallowingUnit ∧
      SourceUnit.ofFile "a.css" ".a {}\n".toList = .ok (importedUnit "a.css") :=
  ⟨Native.ok_of_toOption (by decide +kernel), Native.ok_of_toOption (by decide +kernel)⟩

theorem target?_importing :
    LinkedSheet.target? importingWorld importingOptions.imports swallowingUnit
        ⟨"a.css", ⟨0, 16⟩⟩ = some ("a.css" : Path) ∧
      Path.isAdmissible "a.css" = true ∧ LinkedSheet.hasSeen ["main.css"] "a.css" = false := by
  decide +kernel

theorem asked_importing :
    (nativeGenerator.generate "main.css").asked importingWorld =
      ["main.css", "a.css", "a.css"] := by
  obtain ⟨parsed, imported⟩ := parsed_importing
  obtain ⟨target, new⟩ := target?_importing
  have main : importingWorld.files.read importingWorld.cwd "main.css" = .ok swallowing := rfl
  have content : importingWorld.files.read importingWorld.cwd "a.css" =
      .ok ".a {}\n".toList := rfl
  have imports : swallowingUnit.imports = [⟨"a.css", ⟨0, 16⟩⟩] := rfl
  have none : (importedUnit "a.css").imports = [] := rfl
  have linked : (LinkedSheet.linkImports importingOptions.imports swallowingUnit
      swallowingUnit.imports 0 ["main.css"]).requests importingWorld =
        [.kind "a.css", .read "a.css"] := by
    rw [imports, LinkedSheet.requests_linkImports_cons, target]
    simp only [if_pos new, content, imported, none, LinkedSheet.requests_linkImports_nil]
    split <;> rfl
  have options : nativeGenerator.compileOptions "main.css" = importingOptions := rfl
  rw [Action.asked, requests_generate rfl, main]
  simp only [parsed, options, linked]
  rfl

theorem exists_generate_importing :
    ∃ artifacts, (nativeGenerator.generate "main.css").run importingWorld =
      (.ok (some artifacts), importingWorld) := by
  obtain ⟨parsed, imported⟩ := parsed_importing
  obtain ⟨target, -, new⟩ := target?_importing
  obtain ⟨outcome, links, ran⟩ := Native.run_compile importingWorld importingOptions swallowing
  obtain rfl := links.unique <| .parsed parsed <|
    .fresh target new rfl imported (.nil _ _ _) (.nil swallowingUnit 16 _)
  let bundle := Bundle.ofSheet (Native.rootOf "main.css") importingSheet
  obtain ⟨map, decoded, -⟩ := bundle.exists_decoded "main.css"
  have faultless : (Parser.parse bundle.css).faults = [] := by decide +kernel
  have exports : (Parser.parse bundle.css).sheet.exported ≠ [] := by decide +kernel
  have generated := @run_generate importingWorld nativeGenerator "main.css" _ _ _ rfl rfl ran
    (NamedClass.ofCompiled_eq faultless decoded _)
  rw [generated]
  cases made : Artifacts.ofClasses? nativeGenerator.options "main.css" _ with
  | none =>
      rw [Artifacts.ofClasses?, Option.map_eq_none_iff, Declaration.render?_eq_none_iff,
        List.map_eq_nil_iff] at made
      exact absurd made exports
  | some artifacts => exact ⟨artifacts, rfl⟩

theorem writeFile_importing :
    ((nativeGenerator.writeFile "main.css").run importingWorld).1 =
      .written "main.css.d.ts" (some ("main.css.d.ts.map" : Path)) := by
  obtain ⟨artifacts, generated⟩ := exists_generate_importing
  have agrees := (isHarmless_warn artifacts.rejections).agrees_run importingWorld
  unfold writeFile
  rw [Action.run_bind, generated]
  simp only [Action.run_bind]
  generalize ((warn artifacts.rejections).run importingWorld).2 = after at agrees ⊢
  obtain ⟨files, cwd, lessc, started, alerts, logged⟩ := after
  obtain ⟨rfl, rfl⟩ : files = importingWorld.files ∧ cwd = importingWorld.cwd :=
    ⟨agrees.files, agrees.cwd⟩
  rfl

theorem checkFile_after_writeFile_importing :
    let wrote := (nativeGenerator.writeFile "main.css").run importingWorld
    nativeGenerator.compiler.kind = .native ∧
      (∀ path ∈ (nativeGenerator.generate "main.css").asked importingWorld,
        path ≠ ("main.css" : Path) → ∀ artifact ∈ Artifacts.paths "main.css",
          ¬ importingWorld.SamePlace path artifact) ∧
      wrote.1 = .written "main.css.d.ts" (some ("main.css.d.ts.map" : Path)) ∧
      ((nativeGenerator.checkFile "main.css").run wrote.2).1 = true := by
  intro wrote
  have untouched : ∀ path ∈ (nativeGenerator.generate "main.css").asked importingWorld,
      path ≠ ("main.css" : Path) → ∀ artifact ∈ Artifacts.paths "main.css",
        ¬ importingWorld.SamePlace path artifact := by
    rw [asked_importing]
    decide +kernel
  have succeeds : wrote.1 ≠ .failed := by
    rw [writeFile_importing]
    exact nofun
  obtain ⟨passes, -⟩ := checkFile_after_writeFile rfl untouched succeeds
  exact ⟨rfl, untouched, writeFile_importing, passes⟩

end Generator
end StyleTypings
