import Mathlib.Data.List.Pairwise
import StyleTypings.Proofs.Session.Writing

/-!
# Writing in any order

The style sheets of a batch are written by tasks that take their steps in any order. If none
of them reads what another one writes, each comes to what it comes to by itself. Their
artifacts lie at different places, so the order of the writes does not matter either: all
schedules leave the same files, the same outcomes and the same messages.
-/

namespace StyleTypings

/-! ## Style sheets that are told apart -/

namespace World

/-- Paths that lead to places, each to another one. -/
structure Distinguishes (world : World) (paths : List Path) : Prop where
  leads : ∀ path ∈ paths, ∃ place, world.files.resolve world.cwd path = .ok place
  apart : paths.Pairwise fun path other => ¬ world.SamePlace path other

variable {world : World} {files : List Path}

/-- Paths to different places are not alike. -/
theorem Distinguishes.nodup_key (distinct : world.Distinguishes files) :
    (files.map Path.key).Nodup := by
  refine List.pairwise_map.mpr (distinct.apart.imp_of_mem fun {file other} among amongToo apart
    keys => apart ?_)
  obtain ⟨place, leads⟩ := distinct.leads file among
  obtain ⟨placeToo, leadsToo⟩ := distinct.leads other amongToo
  have same : placeToo = place := by
    rw [FileSystem.resolve_eq leads, FileSystem.resolve_eq leadsToo]
    exact Place.ofPath_eq_of_alike ((Path.alike_iff _ _).mpr keys.symm) _
  exact ⟨place, leads, same ▸ leadsToo⟩

theorem Distinguishes.eq_of_samePlace
    (distinct : world.Distinguishes files)
    {file other : Path}
    (listed : file ∈ files)
    (listedToo : other ∈ files)
    (same : world.SamePlace file other) :
    file = other := by
  have symmetric : Std.Symm fun path other => ¬ world.SamePlace path other :=
    ⟨fun path other apart same => apart (same.imp fun place leads => leads.symm)⟩
  by_contra differ
  exact distinct.apart.forall listed listedToo differ same

/-- The artifacts of style sheets at different places lie at different places. -/
theorem samePlace_of_artifacts
    {file other artifact artifactToo : Path}
    {place : Place}
    (leads : ∃ place, world.files.resolve world.cwd file = .ok place)
    (leadsToo : ∃ place, world.files.resolve world.cwd other = .ok place)
    (among : artifact ∈ Artifacts.paths file)
    (amongToo : artifactToo ∈ Artifacts.paths other)
    (isThere : world.files.resolve world.cwd artifact = .ok place)
    (isThereToo : world.files.resolve world.cwd artifactToo = .ok place) :
    world.SamePlace file other := by
  obtain ⟨first, leads⟩ := leads
  obtain ⟨second, leadsToo⟩ := leadsToo
  obtain ⟨suffix, ending, -, rfl⟩ := exists_beside leads among isThere
  obtain ⟨suffixToo, endingToo, -, beside⟩ := exists_beside leadsToo amongToo isThereToo
  obtain ⟨-, same⟩ := Artifacts.beside_inj ending endingToo beside
  rw [← FileSystem.resolve_eq leads, ← FileSystem.resolve_eq leadsToo] at same
  exact ⟨first, leads, same ▸ leadsToo⟩

end World

namespace Generator

variable {generator : Generator} {world : World} {files : List Path}

/-! ## What a batch leaves -/

/-- Style sheets were written: at the places of its artifacts each left what it leaves by
itself, and elsewhere everything is as it was. -/
structure AreWritten
    (generator : Generator)
    (world : World)
    (files : List Path)
    (after : FileSystem) : Prop where
  artifact : ∀ file ∈ files, ∀ artifact ∈ Artifacts.paths file, ∀ place,
    world.files.resolve world.cwd artifact = .ok place →
      after.find? place = ((generator.writeFile file).run world).2.files.find? place
  elsewhere : ∀ place,
    (∀ file ∈ files, ∀ artifact ∈ Artifacts.paths file,
      world.files.resolve world.cwd artifact ≠ .ok place) →
    after.find? place = world.files.find? place

/-- There is one way to leave the files. -/
theorem AreWritten.find?_eq
    {after other : FileSystem}
    (written : generator.AreWritten world files after)
    (writtenToo : generator.AreWritten world files other)
    (place : Place) :
    after.find? place = other.find? place := by
  by_cases isArtifact : ∃ file ∈ files, ∃ artifact ∈ Artifacts.paths file,
      world.files.resolve world.cwd artifact = .ok place
  · obtain ⟨file, listed, artifact, among, leads⟩ := isArtifact
    rw [written.artifact file listed artifact among place leads,
      writtenToo.artifact file listed artifact among place leads]
  · have off : ∀ file ∈ files, ∀ artifact ∈ Artifacts.paths file,
        world.files.resolve world.cwd artifact ≠ .ok place :=
      fun file listed artifact among leads =>
        isArtifact ⟨file, listed, artifact, among, leads⟩
    rw [written.elsewhere place off, writtenToo.elsewhere place off]

section Batch

variable (native : generator.compiler.kind = .native)
  (distinct : world.Distinguishes files)
  (apart : ∀ file ∈ files, ∀ path ∈ (generator.generate file).asked world,
    ∀ other ∈ files, ∀ artifact ∈ Artifacts.paths other, ¬ world.SamePlace path artifact)

include distinct apart in
theorem isApart_of_mem {file : Path} (listed : file ∈ files) :
    generator.IsApart world files file :=
  ⟨listed, distinct.leads file listed, apart file listed⟩

include native distinct apart

/-- The writing of each style sheet is steady, changes only its own artifacts, and each of
them once. -/
theorem steady_of_mem {file : Path} (listed : file ∈ files) :
    (generator.writeFile file).Steady (world.IsArtifact files) world ∧
      (∀ change ∈ world.changes ((generator.writeFile file).requests world),
        ∃ artifact ∈ Artifacts.paths file,
          world.files.resolve world.cwd artifact = .ok change.1) ∧
      ((world.changes ((generator.writeFile file).requests world)).map Prod.fst).Nodup := by
  obtain ⟨outcome, changes, leaves, writes⟩ :=
    exists_writes native (isApart_of_mem distinct apart listed)
  rw [leaves.changes]
  exact ⟨leaves.steady, writes.own, writes.distinct⟩

/-- No two writes of a batch are to the same place. -/
theorem nodup_changes :
    ((world.changes (files.flatMap fun file =>
      (generator.writeFile file).requests world)).map Prod.fst).Nodup := by
  have own {file : Path} (listed : file ∈ files) :=
    steady_of_mem native distinct apart listed
  unfold World.changes
  rw [List.filterMap_flatMap, List.map_flatMap, List.nodup_flatMap]
  refine ⟨fun file listed => (own listed).2.2, distinct.apart.imp_of_mem
    fun {file other} listed listedToo elsewhere place among amongToo => elsewhere ?_⟩
  obtain ⟨change, isChange, rfl⟩ := List.mem_map.mp among
  obtain ⟨changeToo, isChangeToo, same⟩ := List.mem_map.mp amongToo
  obtain ⟨artifact, isArtifact, leads⟩ := (own listed).2.1 change isChange
  obtain ⟨artifactToo, isArtifactToo, leadsToo⟩ := (own listedToo).2.1 changeToo isChangeToo
  rw [same] at leadsToo
  exact World.samePlace_of_artifacts (distinct.leads file listed)
    (distinct.leads other listedToo) isArtifact isArtifactToo leads leadsToo

/-- The requests of a batch may be done in any order. -/
theorem areWritten_of_perm
    {done : List Request}
    (same : done.Perm (files.flatMap fun file => (generator.writeFile file).requests world)) :
    generator.AreWritten world files (world.afterAll done).files := by
  have own {file : Path} (listed : file ∈ files) :=
    steady_of_mem native distinct apart listed
  have noDirectory := @World.IsArtifact.not_directory world files
  have begins := (Action.undisturbed_steady noDirectory (α := WriteOutcome)).begins
  have steady : ∀ request ∈ done, request.IsSteady (world.IsArtifact files) world := by
    intro request made
    obtain ⟨file, listed, among⟩ := List.mem_flatMap.mp (same.mem_iff.mp made)
    exact (own listed).1.mem_requests noDirectory among
  have changes := same.filterMap world.change?
  have once : ((world.changes done).map Prod.fst).Nodup :=
    (changes.map Prod.fst).nodup_iff.mpr (nodup_changes native distinct apart)
  have mem_changes (change : Place × Text) : change ∈ world.changes done ↔
      ∃ file ∈ files, change ∈ world.changes ((generator.writeFile file).requests world) := by
    rw [World.changes, changes.mem_iff, List.filterMap_flatMap, List.mem_flatMap]
    rfl
  constructor
  · intro file listed artifact among place leads
    have steadyAlone (request : Request)
        (made : request ∈ (generator.writeFile file).requests world) :=
      (own listed).1.mem_requests noDirectory made
    rw [Action.run_snd]
    by_cases changed : place ∈
        (world.changes ((generator.writeFile file).requests world)).map Prod.fst
    · obtain ⟨change, isChange, rfl⟩ := List.mem_map.mp changed
      have isChangeOfAll := (mem_changes change).mpr ⟨file, listed, isChange⟩
      rw [World.find?_afterAll_of_mem begins steady once isChangeOfAll,
        World.find?_afterAll_of_mem begins steadyAlone (own listed).2.2 isChange]
    · -- Only the style sheet itself writes there, and it does not.
      rw [World.find?_afterAll_of_notMem begins steadyAlone changed]
      refine World.find?_afterAll_of_notMem begins steady fun amongAll => changed ?_
      obtain ⟨change, isChange, rfl⟩ := List.mem_map.mp amongAll
      obtain ⟨other, listedToo, isChange⟩ := (mem_changes _).mp isChange
      obtain ⟨artifactToo, amongToo, leadsToo⟩ := (own listedToo).2.1 change isChange
      obtain rfl := distinct.eq_of_samePlace listed listedToo <| World.samePlace_of_artifacts
        (distinct.leads file listed) (distinct.leads other listedToo) among amongToo leads leadsToo
      exact List.mem_map_of_mem isChange
  · intro place off
    refine World.find?_afterAll_of_notMem begins steady fun among => ?_
    obtain ⟨change, isChange, rfl⟩ := List.mem_map.mp among
    obtain ⟨file, listed, isChange⟩ := (mem_changes _).mp isChange
    obtain ⟨artifact, isArtifact, leads⟩ := (own listed).2.1 change isChange
    exact off file listed artifact isArtifact leads

end Batch

/-- However the tasks of a batch take their steps and are joined, every style sheet comes to
what it comes to by itself: its outcome, its messages and what is left at the places of its
artifacts. So it is too if the style sheets are written one after the other. A batch always
goes on until it is finished, and no schedule goes on for longer. -/
theorem writeFiles_schedules
    (native : generator.compiler.kind = .native)
    (distinct : world.Distinguishes files)
    (apart : ∀ file ∈ files, ∀ path ∈ (generator.generate file).asked world,
      ∀ other ∈ files, ∀ artifact ∈ Artifacts.paths other, ¬ world.SamePlace path artifact) :
    let messages := files.flatMap fun file => (generator.writeFile file).shown world
    ∃ outcomes after,
      (generator.writeFiles files).run world = (outcomes, after) ∧
      outcomes.Perm (files.map fun file => (file, ((generator.writeFile file).run world).1)) ∧
      outcomes.Pairwise (fun result other => result.1.key < other.1.key) ∧
      generator.AreWritten world files after.files ∧
      after.alerts.Perm (messages ++ world.alerts) ∧
      ∃ count, ∀ limit > 0, ∀ steps pool,
        Batch.Pool.Runs generator.writeFile limit steps (.initial world files) pool →
          steps ≤ count ∧
            (¬ pool.IsFinished → ∃ next, Batch.Pool.Step generator.writeFile limit pool next) ∧
            (pool.IsFinished →
              Batch.inPathOrder pool.results = outcomes ∧
                (∀ place, pool.world.files.find? place = after.files.find? place) ∧
                pool.world.alerts.Perm after.alerts) := by
  intro messages
  have noDirectory := @World.IsArtifact.not_directory world files
  have undisturbed := Action.undisturbed_steady noDirectory (α := WriteOutcome)
  have areSteady : ∀ file ∈ files,
      (generator.writeFile file).Steady (world.IsArtifact files) world :=
    fun file listed => (steady_of_mem native distinct apart listed).1
  let results := files.map fun file => (file, ((generator.writeFile file).run world).1)
  have keys : (results.map fun result => result.1.key).Nodup := by
    rw [List.map_map]
    exact distinct.nodup_key
  obtain ⟨values, requests⟩ := Batch.run_labelled undisturbed areSteady undisturbed.begins
  let after := world.afterAll (files.flatMap fun file => (generator.writeFile file).requests world)
  have ran : (generator.writeFiles files).run world = (Batch.inPathOrder results, after) := by
    unfold writeFiles Batch.perform
    rw [Action.run_bind, Action.run_done, values, Action.run_snd, requests]
  have written := areWritten_of_perm native distinct apart (.refl _)
  have alerts {done : List Request}
      (same : done.Perm (files.flatMap fun file => (generator.writeFile file).requests world)) :
      (world.afterAll done).alerts.Perm (messages ++ world.alerts) :=
    (world.alerts_afterAll done).trans ((Batch.shown_of_perm same).append_right _)
  refine ⟨_, after, ran, List.mergeSort_perm _ _, ?_, written, alerts (.refl _),
    (files.map fun file => (generator.writeFile file).asks world + 4).sum,
    fun limit positive steps pool runs => ?_⟩
  · have sorted := Batch.pairwise_inPathOrder results
    have strict : ((Batch.inPathOrder results).map fun result => result.1.key).Nodup :=
      ((List.mergeSort_perm results _).map _).nodup_iff.mpr keys
    exact sorted.imp₂ (fun result other lower apart => lt_of_le_of_ne lower apart)
      (List.pairwise_map.mp strict)
  · -- A finished schedule has made the requests of all tasks in some order.
    obtain ⟨bounded, ends⟩ := runs.serializes undisturbed areSteady
    refine ⟨bounded, fun unfinished => Batch.Pool.exists_step _ positive unfinished,
      fun finished => ?_⟩
    obtain ⟨-, found, -, done, isWorld, same⟩ := ends finished
    refine ⟨(Batch.inPathOrder_eq_of_perm keys found.symm).symm, fun place => ?_, ?_⟩
    · rw [isWorld]
      exact (areWritten_of_perm native distinct apart same).find?_eq written place
    · rw [isWorld]
      exact (alerts same).trans (alerts (.refl _)).symm

/-- A batch in which one style sheet cannot be read. -/
def batchedFiles : List Path :=
  ["main.css", "bad.css"]

/-- The outcomes of that batch. -/
def batchedOutcomes : List (Path × WriteOutcome) :=
  [("bad.css", .failed), ("main.css", .written "main.css.d.ts" (some ⟨"main.css.d.ts.map"⟩))]

theorem writeFile_bad :
    (nativeGenerator.generate "bad.css").asked importingWorld = ["bad.css"] ∧
      ((nativeGenerator.writeFile "bad.css").run importingWorld).1 = .failed := by
  constructor
  · rw [Action.asked, requests_generate rfl]
    rfl
  · rfl

theorem writeFiles_schedules_batched :
    ∃ after,
      nativeGenerator.compiler.kind = .native ∧
        importingWorld.Distinguishes batchedFiles ∧
        (∀ file ∈ batchedFiles, ∀ path ∈ (nativeGenerator.generate file).asked importingWorld,
          ∀ other ∈ batchedFiles, ∀ artifact ∈ Artifacts.paths other,
            ¬ importingWorld.SamePlace path artifact) ∧
        (nativeGenerator.writeFiles batchedFiles).run importingWorld =
          (batchedOutcomes, after) ∧
        ∀ steps pool,
          Batch.Pool.Runs nativeGenerator.writeFile 1 steps (.initial importingWorld batchedFiles)
            pool →
          pool.IsFinished →
            ∀ place, pool.world.files.find? place = after.files.find? place := by
  have distinct : importingWorld.Distinguishes batchedFiles :=
    ⟨List.forall_mem_cons.mpr ⟨⟨["main.css".toList], rfl⟩,
      List.forall_mem_singleton.mpr ⟨["bad.css".toList], rfl⟩⟩, by decide +kernel⟩
  have apart : ∀ file ∈ batchedFiles,
      ∀ path ∈ (nativeGenerator.generate file).asked importingWorld,
        ∀ other ∈ batchedFiles, ∀ artifact ∈ Artifacts.paths other,
          ¬ importingWorld.SamePlace path artifact := by
    refine List.forall_mem_cons.mpr ⟨?_, List.forall_mem_singleton.mpr ?_⟩
    · rw [asked_importing]
      decide +kernel
    · rw [writeFile_bad.1]
      decide +kernel
  obtain ⟨outcomes, after, ran, same, strict, -, -, count, schedules⟩ :=
    @writeFiles_schedules nativeGenerator importingWorld batchedFiles rfl distinct apart
  have expected : outcomes = batchedOutcomes := by
    rw [batchedFiles, List.map_cons, List.map_cons, List.map_nil, writeFile_importing,
      writeFile_bad.2] at same
    refine (same.trans (.swap _ _ _)).eq_of_pairwise (fun result other _ _ less greater =>
      absurd less (lt_asymm greater)) strict ?_
    decide +kernel
  rw [expected] at ran
  refine ⟨after, rfl, distinct, apart, ran, fun steps pool runs finished => ?_⟩
  obtain ⟨-, -, ends⟩ := schedules 1 Nat.one_pos steps pool runs
  exact (ends finished).2.1

end Generator
end StyleTypings
