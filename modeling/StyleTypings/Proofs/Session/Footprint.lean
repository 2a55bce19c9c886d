import StyleTypings.Proofs.Files.Beside
import StyleTypings.Proofs.Files.Steady
import StyleTypings.Proofs.Session.Checking

/-!
# What the writing of a style sheet touches

While a style sheet is written, the paths asked about are its own and those tried for its
imports, and a path is read only if a regular file was found there. The only places that
change are those of its declaration and of the declaration's map. So as long as none of the
paths asked about leads to an artifact, the writing is steady.
-/

namespace StyleTypings

namespace World

/-- Two paths lead to one place. -/
def SamePlace (world : World) (path other : Path) : Prop :=
  ∃ place, world.files.resolve world.cwd path = .ok place ∧
    world.files.resolve world.cwd other = .ok place

instance (world : World) (path other : Path) : Decidable (world.SamePlace path other) :=
  decidable_of_iff
    (world.files.resolve world.cwd path = world.files.resolve world.cwd other ∧
      (world.files.resolve world.cwd path).isOk = true) <| by
    unfold SamePlace
    cases world.files.resolve world.cwd path with
    | error problem => simp [Except.isOk, Except.toBool]
    | ok place => simp [Except.isOk, Except.toBool, eq_comm]

end World

/-! ## The paths asked about -/

namespace Request

/-- The path about which a request asks. -/
def asked? : Request → Option Path
  | .kind path | .read path => some path
  | _ => none

/-- Whether a request asks what a path names. -/
def isProbe : Request → Bool
  | .kind _ => true
  | _ => false

/-- Whether a request shows a message. -/
def isMessage : Request → Bool
  | .alert _ => true
  | _ => false

/-- A request that asks what a path names, or reads a regular file or the given path. -/
def IsGrounded (world : World) (file : Path) : Request → Prop
  | .kind _ => True
  | .read path => path = file ∨ LinkedSheet.isRegular world path = true
  | _ => False

end Request

/-- The paths about which an action asks, the walks apart. -/
def Action.asked {α : Type} (action : Action α) (world : World) : List Path :=
  (action.requests world).filterMap Request.asked?

namespace LinkedSheet

@[simp] theorem requests_linkImports_nil
    (world : World)
    (options : ImportOptions)
    (unit : SourceUnit)
    (cursor : Nat)
    (seen : List Path) :
    (linkImports options unit [] cursor seen).requests world = [] := by
  rw [linkImports]
  rfl

/-- An import is looked for. A file that was not seen is read, and its own imports come before
the imports that are left. -/
theorem requests_linkImports_cons
    (world : World)
    (options : ImportOptions)
    (unit : SourceUnit)
    (rule : ImportRule)
    (rest : List ImportRule)
    (cursor : Nat)
    (seen : List Path) :
    (linkImports options unit (rule :: rest) cursor seen).requests world =
      (findFile (ImportSpecifier.candidates options unit.path rule.specifier)).requests world ++
        match target? world options unit rule with
        | none => []
        | some target =>
            if target.isAdmissible = true ∧ hasSeen seen target = false then
              .read target ::
                match world.files.read world.cwd target with
                | .error _ => []
                | .ok source =>
                    match SourceUnit.ofFile target source with
                    | .error _ => []
                    | .ok imported =>
                        let inner := linkImports options imported imported.imports 0
                          (target :: seen)
                        inner.requests world ++
                          match (inner.run world).1 with
                          | .error _ => []
                          | .ok linked =>
                              (linkImports options unit rest rule.span.stop
                                linked.seenAfter).requests world
            else
              (linkImports options unit rest rule.span.stop seen).requests world := by
  have run (options : ImportOptions) (unit : SourceUnit) (rules : List ImportRule)
      (cursor : Nat) (seen : List Path) :=
    (inquires_linkImports options unit rules cursor seen).run_snd world
  rw [linkImports, Action.requests_bind, run_findFile]
  change _ ++ _ = _ ++ match (ImportSpecifier.candidates options unit.path rule.specifier).find?
    (isRegular world) with | none => _ | some target => _
  refine congrArg _ ?_
  cases (ImportSpecifier.candidates options unit.path rule.specifier).find?
      (isRegular world) with
  | none => rfl
  | some target =>
      by_cases new : target.isAdmissible = true ∧ hasSeen seen target = false
      · have first : (Action.readText target).requests world = [.read target] := rfl
        simp only [dif_pos new, if_pos new, Action.requests_bind, run_readText, first,
          List.singleton_append]
        refine congrArg (List.cons _) ?_
        cases world.files.read world.cwd target with
        | error problem => rfl
        | ok source =>
            cases parsed : SourceUnit.ofFile target source with
            | error problem => simp only [parsed, Action.requests_done]
            | ok imported =>
                simp only [parsed, Action.requests_bind, run]
                refine congrArg (List.append _) ?_
                cases ((linkImports options imported imported.imports 0
                    (target :: seen)).run world).1 with
                | error problem => rfl
                | ok inner =>
                    simp only [Action.requests_bind, run]
                    split <;> exact List.append_nil _
      · simp only [dif_neg new, if_neg new, Action.requests_bind, run]
        split <;> exact List.append_nil _

/-- What is read for imports are regular files. -/
theorem grounded_linkImports
    (world : World)
    (file : Path)
    (options : ImportOptions)
    (unit : SourceUnit)
    (rules : List ImportRule)
    (cursor : Nat)
    (seen : List Path) :
    ∀ request ∈ (linkImports options unit rules cursor seen).requests world,
      request.IsGrounded world file := by
  induction unit, rules, cursor, seen using linkImports.induct with
  | case1 unit cursor seen =>
      rw [requests_linkImports_nil]
      exact List.forall_mem_nil _
  | case2 unit cursor seen rule rest within behind again =>
      rw [requests_linkImports_cons]
      refine List.forall_mem_append.mpr ⟨fun request made => ?_, ?_⟩
      · have probe := (only_findFile (fun _ => rfl) _ :
          Action.Only Request.isProbe _).of_mem_requests made
        cases request with
        | kind path => trivial
        | _ => cases probe
      · cases found : target? world options unit rule with
        | none => exact List.forall_mem_nil _
        | some target =>
            by_cases new : target.isAdmissible = true ∧ hasSeen seen target = false
            · simp only [if_pos new]
              refine List.forall_mem_cons.mpr ⟨.inr (List.find?_some found), ?_⟩
              split
              · exact List.forall_mem_nil _
              · split
                · exact List.forall_mem_nil _
                · next imported _ =>
                    refine List.forall_mem_append.mpr ⟨within target new imported, ?_⟩
                    split
                    · exact List.forall_mem_nil _
                    · exact behind target new _
            · simp only [if_neg new]
              exact again

end LinkedSheet

namespace Generator

variable {generator : Generator}

/-- The style sheet is read, and then what it imports. -/
theorem requests_generate
    (native : generator.compiler.kind = .native)
    (world : World)
    (file : Path) :
    (generator.generate file).requests world =
      .read file ::
        match world.files.read world.cwd file with
        | .error _ => []
        | .ok source =>
            match SourceUnit.ofFile file source with
            | .error _ => []
            | .ok unit =>
                (LinkedSheet.linkImports (generator.compileOptions file).imports unit
                  unit.imports 0 [file]).requests world := by
  have first : (Action.readText file).requests world = [.read file] := rfl
  unfold generate classesOf
  simp only [Action.requests_bind, LinkedSheet.run_readText, first, List.singleton_append,
    Action.requests_done, List.append_nil]
  refine congrArg (List.cons _) ?_
  cases world.files.read world.cwd file with
  | error problem => rfl
  | ok source =>
      simp only [compile_native native, Action.requests_bind, Action.requests_done,
        List.append_nil]
      unfold Native.compile LinkedSheet.link compileOptions
      cases SourceUnit.ofFile file source with
      | error problem => rfl
      | ok unit =>
          simp only [Action.requests_bind]
          split <;> split <;> simp

theorem grounded_generate
    (native : generator.compiler.kind = .native)
    (world : World)
    (file : Path) :
    ∀ request ∈ (generator.generate file).requests world, request.IsGrounded world file := by
  rw [requests_generate native]
  refine List.forall_mem_cons.mpr ⟨.inl rfl, ?_⟩
  split
  · exact List.forall_mem_nil _
  · split
    · exact List.forall_mem_nil _
    · exact LinkedSheet.grounded_linkImports world file _ _ _ _ _

end Generator

/-! ## The places that change -/

namespace Artifacts

/-- The paths of the artifacts of a style sheet. -/
def paths (file : Path) : List Path :=
  [declarationPath file, mapPath file]

theorem exists_ending {file artifact : Path} (among : artifact ∈ paths file) :
    ∃ suffix ∈ endings, artifact = file.append suffix := by
  rcases List.mem_pair.mp among with rfl | rfl
  · exact ⟨_, List.mem_cons_self, rfl⟩
  · exact ⟨_, List.mem_cons_of_mem _ List.mem_cons_self, rfl⟩

end Artifacts

namespace World

/-- A place at which an artifact of one of some style sheets can be written. -/
def IsArtifact (world : World) (files : List Path) (place : Place) : Prop :=
  (∃ file ∈ files, ∃ artifact ∈ Artifacts.paths file,
    world.files.resolve world.cwd artifact = .ok place) ∧
      world.files.find? place ≠ some .directory

variable {world : World} {files : List Path} {file artifact : Path} {place : Place}

theorem IsArtifact.not_directory (place : Place) (within : world.IsArtifact files place) :
    world.files.find? place ≠ some .directory :=
  within.2

/-- Where an artifact of a style sheet lies, if it can be there. -/
theorem exists_beside
    (leads : world.files.resolve world.cwd file = .ok place)
    (among : artifact ∈ Artifacts.paths file)
    {other : Place}
    (leadsToo : world.files.resolve world.cwd artifact = .ok other) :
    ∃ suffix ∈ Artifacts.endings,
      artifact = file.append suffix ∧ other = .beside world.cwd file suffix := by
  obtain ⟨suffix, ending, rfl⟩ := Artifacts.exists_ending among
  obtain ⟨simple, proper⟩ := Artifacts.mem_endings ending
  rw [FileSystem.resolve_append leads simple proper] at leadsToo
  split at leadsToo
  · exact ⟨suffix, ending, rfl, (Except.ok.inj leadsToo).symm⟩
  · exact absurd leadsToo nofun

/-- The writing of an artifact is steady. -/
theorem isSteady_write
    (listed : file ∈ files)
    (leads : world.files.resolve world.cwd file = .ok place)
    (among : artifact ∈ Artifacts.paths file)
    (text : Text) :
    (Request.write artifact text).IsSteady (world.IsArtifact files) world := by
  refine ⟨fun system agrees => ?_, fun other leadsToo notDirectory =>
    ⟨⟨file, listed, artifact, among, leadsToo⟩, notDirectory⟩⟩
  obtain ⟨suffix, ending, rfl⟩ := Artifacts.exists_ending among
  obtain ⟨simple, proper⟩ := Artifacts.mem_endings ending
  rw [FileSystem.resolve_append leads simple proper,
    FileSystem.resolve_append (agrees.resolve_eq_ok leads) simple proper]

/-- A grounded request is steady if it asks about no artifact. -/
theorem isSteady_of_isGrounded
    {request : Request}
    (leads : world.files.resolve world.cwd file = .ok place)
    (grounded : request.IsGrounded world file)
    (avoids : ∀ path, request.asked? = some path → ∀ listed ∈ files,
      ∀ artifact ∈ Artifacts.paths listed, ¬ world.SamePlace path artifact) :
    request.IsSteady (world.IsArtifact files) world := by
  have off (path : Path) (asked : request.asked? = some path) (other : Place)
      (leadsToo : world.files.resolve world.cwd path = .ok other) :
      ¬ world.IsArtifact files other := by
    rintro ⟨⟨listed, isListed, artifact, among, leadsThere⟩, -⟩
    exact avoids path asked listed isListed artifact among ⟨other, leadsToo, leadsThere⟩
  cases request with
  | kind path => exact off path rfl
  | read path =>
      -- What is read leads somewhere even while artifacts come to be: it is a file already.
      have somewhere : ∃ other, world.files.resolve world.cwd path = .ok other := by
        rcases grounded with rfl | regular
        · exact ⟨place, leads⟩
        · unfold LinkedSheet.isRegular FileSystem.kind? at regular
          cases named : world.files.entryAt world.cwd path with
          | ok entry => exact ⟨_, (FileSystem.entryAt_eq named).1⟩
          | error problem =>
              rw [named] at regular
              exact absurd regular nofun
      obtain ⟨other, leadsToo⟩ := somewhere
      exact ⟨other, leadsToo, off path rfl other leadsToo⟩
  | _ => exact grounded.elim

end World

namespace Generator

variable {generator : Generator} {world : World} {files : List Path} {file : Path}
  {place : Place}

/-- A listed style sheet that is where it should be, and for which no path is asked about that
leads to an artifact of the list. -/
structure IsApart (generator : Generator) (world : World) (files : List Path) (file : Path) :
    Prop where
  listed : file ∈ files
  leads : ∃ place, world.files.resolve world.cwd file = .ok place
  avoids : ∀ path ∈ (generator.generate file).asked world, ∀ listed ∈ files,
    ∀ artifact ∈ Artifacts.paths listed, ¬ world.SamePlace path artifact

theorem steady_generate
    (native : generator.compiler.kind = .native)
    (apart : generator.IsApart world files file) :
    (generator.generate file).Steady (world.IsArtifact files) world := by
  obtain ⟨place, leads⟩ := apart.leads
  refine .of_inquires (inquires_generate native file) fun request made => ?_
  exact World.isSteady_of_isGrounded leads (grounded_generate native world file request made)
    fun path asked => apart.avoids path (List.mem_filterMap.mpr ⟨request, made, asked⟩)

/-! ## What is written -/

/-- What a steady action comes to and what it changes. -/
structure Leaves
    (territory : Place → Prop)
    (start : World)
    (action : Action WriteOutcome)
    (outcome : WriteOutcome)
    (changes : List (Place × Text)) : Prop where
  steady : action.Steady territory start
  outcome : (action.run start).1 = outcome
  changes : start.changes (action.requests start) = changes

theorem leaves_fail (territory : Place → Prop) (start : World) (message : Text) :
    Leaves territory start (fail message) .failed [] :=
  ⟨.ask trivial (.done _), rfl, rfl⟩

theorem leaves_succeed
    (territory : Place → Prop)
    (start : World)
    (declaration : Path)
    (map : Option Path) :
    Leaves territory start (succeed declaration map) (.written declaration map) [] :=
  ⟨.ask trivial (.done _), rfl, rfl⟩

section Leaves

variable {territory : Place → Prop} {start : World}
  (noDirectory : ∀ place, territory place → start.files.find? place ≠ some .directory)

include noDirectory

/-- A steady part and a rest leave what both change. -/
theorem Leaves.bind
    {α : Type}
    {action : Action α}
    {next : α → Action WriteOutcome}
    {outcome : WriteOutcome}
    {changes : List (Place × Text)}
    (steady : action.Steady territory start)
    (later : Leaves territory start (next (action.run start).1) outcome changes) :
    Leaves territory start (action.bind next) outcome
      (start.changes (action.requests start) ++ changes) := by
  obtain ⟨values, requests⟩ := steady.bind_eq noDirectory later.steady
  refine ⟨steady.bind noDirectory later.steady, values.trans later.outcome, ?_⟩
  rw [requests, World.changes_append, later.changes]

/-- A part that writes nothing leaves what the rest leaves. -/
theorem Leaves.bind_isHarmless
    {α : Type}
    {action : Action α}
    {next : α → Action WriteOutcome}
    {outcome : WriteOutcome}
    {changes : List (Place × Text)}
    (steady : action.Steady territory start)
    (harmless : action.IsHarmless)
    (later : Leaves territory start (next (action.run start).1) outcome changes) :
    Leaves territory start (action.bind next) outcome changes := by
  have whole := later.bind noDirectory steady
  rwa [World.changes_of_isHarmless _ fun request made => harmless.of_mem_requests made]
    at whole

/-- A file is written and the rest is done, or nothing is. -/
theorem leaves_writeOrFail
    {path : Path}
    {text : Text}
    {next : Action WriteOutcome}
    {outcome : WriteOutcome}
    {changes : List (Place × Text)}
    (first : (Request.write path text).IsSteady territory start)
    (later : Leaves territory start next outcome changes) :
    Leaves territory start (writeOrFail path text next) .failed [] ∨
      ∃ place, start.files.resolve start.cwd path = .ok place ∧
        Leaves territory start (writeOrFail path text next) outcome
          ((place, text) :: changes) := by
  have steady : (Action.writeText path text).Steady territory start := .ask first (.done _)
  have single : start.changes ((Action.writeText path text).requests start) =
      (start.change? (.write path text)).toList := by
    have made : (Action.writeText path text).requests start = [.write path text] := rfl
    rw [made]
    cases change : start.change? (.write path text) <;> simp [World.changes, change]
  have value : ((Action.writeText path text).run start).1 =
      (start.answer (.write path text)).1 := rfl
  rcases start.answer_write path text with ⟨problem, fails, kept⟩ | ⟨place, leads, written, change⟩
  · rw [fails] at value
    rw [kept] at single
    have rest := leaves_fail territory start (unwritableMessage path problem)
    have whole : Leaves territory start (writeOrFail path text next) .failed _ :=
      Leaves.bind noDirectory steady (by rw [value]; exact rest)
    rw [single] at whole
    exact .inl whole
  · rw [written] at value
    rw [change] at single
    have whole : Leaves territory start (writeOrFail path text next) outcome _ :=
      Leaves.bind noDirectory steady (by rw [value]; exact later)
    rw [single] at whole
    exact .inr ⟨place, leads, whole⟩

/-- Files are written one after the other until one cannot be. -/
theorem exists_leaves_foldr
    {outputs : List (Path × Text)}
    {last : Action WriteOutcome}
    {ending : WriteOutcome}
    (steady : ∀ output ∈ outputs, (Request.write output.1 output.2).IsSteady territory start)
    (apart : outputs.Pairwise fun output other => ¬ start.SamePlace output.1 other.1)
    (later : Leaves territory start last ending []) :
    ∃ outcome changes,
      Leaves territory start
          (outputs.foldr (fun output rest => writeOrFail output.1 output.2 rest) last) outcome
          changes ∧
        (∀ change ∈ changes, ∃ output ∈ outputs,
          start.files.resolve start.cwd output.1 = .ok change.1) ∧
        (changes.map Prod.fst).Nodup ∧
        (outcome ≠ .failed → ∀ output ∈ outputs, ∃ place,
          start.files.resolve start.cwd output.1 = .ok place ∧ (place, output.2) ∈ changes) := by
  -- The files come one before the other, so the induction begins with the last action.
  induction outputs with
  | nil => exact ⟨ending, [], later, nofun, .nil, fun _ => nofun⟩
  | cons first rest inductionHypothesis =>
      obtain ⟨others, apart⟩ := List.pairwise_cons.mp apart
      obtain ⟨outcome, changes, leaves, own, distinct, complete⟩ := inductionHypothesis
        (fun output among => steady output (List.mem_cons_of_mem _ among)) apart
      rcases leaves_writeOrFail noDirectory (steady first List.mem_cons_self) leaves with
        fails | ⟨place, leads, written⟩
      · exact ⟨.failed, [], fails, nofun, .nil, fun succeeds => absurd rfl succeeds⟩
      · refine ⟨outcome, _, written, List.forall_mem_cons.mpr ⟨?_, fun change among => ?_⟩, ?_,
          fun succeeds => List.forall_mem_cons.mpr ⟨?_, fun output among => ?_⟩⟩
        · exact ⟨first, List.mem_cons_self, leads⟩
        · obtain ⟨output, isOutput, leadsToo⟩ := own change among
          exact ⟨output, List.mem_cons_of_mem _ isOutput, leadsToo⟩
        · refine List.nodup_cons.mpr ⟨fun among => ?_, distinct⟩
          obtain ⟨change, isChange, same⟩ := List.mem_map.mp among
          obtain ⟨output, isOutput, leadsToo⟩ := own change isChange
          rw [same] at leadsToo
          exact others output isOutput ⟨place, leads, leadsToo⟩
        · exact ⟨place, leads, List.mem_cons_self⟩
        · obtain ⟨other, leadsToo, isChange⟩ := complete succeeds output among
          exact ⟨other, leadsToo, List.mem_cons_of_mem _ isChange⟩

end Leaves

/-! ## What the writing of a style sheet comes to -/

/-- The files that artifacts are to be written to, with their texts. -/
def outputsOf (generator : Generator) (file : Path) (artifacts : Artifacts) :
    List (Path × Text) :=
  (Artifacts.declarationPath file, artifacts.declaration) ::
    if generator.options.declarationMap then [(Artifacts.mapPath file, artifacts.map)] else []

/-- The files that the writing of a style sheet is to leave, with their texts. -/
def outputs (generator : Generator) (world : World) (file : Path) : List (Path × Text) :=
  match ((generator.generate file).run world).1 with
  | .ok (some artifacts) => generator.outputsOf file artifacts
  | _ => []

theorem mem_paths_of_mem_outputsOf
    {artifacts : Artifacts}
    {output : Path × Text}
    (among : output ∈ generator.outputsOf file artifacts) :
    output.1 ∈ Artifacts.paths file := by
  rcases List.mem_cons.mp among with rfl | later
  · exact List.mem_cons_self
  · split at later
    · obtain rfl := List.mem_singleton.mp later
      exact List.mem_cons_of_mem _ List.mem_cons_self
    · exact absurd later List.not_mem_nil

/-- What the writing of a style sheet comes to: it changes only its own artifacts, each at
most once, and unless it fails it changes all that it is to leave. -/
structure Writes
    (generator : Generator)
    (world : World)
    (file : Path)
    (outcome : WriteOutcome)
    (changes : List (Place × Text)) : Prop where
  own : ∀ change ∈ changes, ∃ artifact ∈ Artifacts.paths file,
    world.files.resolve world.cwd artifact = .ok change.1
  distinct : (changes.map Prod.fst).Nodup
  complete : outcome ≠ .failed →
    (∃ artifacts?, ((generator.generate file).run world).1 = .ok artifacts?) ∧
      ∀ output ∈ generator.outputs world file, ∃ place,
        world.files.resolve world.cwd output.1 = .ok place ∧ (place, output.2) ∈ changes

theorem writeArtifacts_eq (generator : Generator) (file : Path) (artifacts : Artifacts) :
    generator.writeArtifacts file artifacts =
      (generator.outputsOf file artifacts).foldr
        (fun output rest => writeOrFail output.1 output.2 rest)
        (succeed (Artifacts.declarationPath file)
          (if generator.options.declarationMap then some (Artifacts.mapPath file) else none)) := by
  unfold writeArtifacts outputsOf
  cases generator.options.declarationMap <;> rfl

/-- The artifacts of a style sheet lie at two places. -/
theorem not_samePlace_artifacts
    (leads : world.files.resolve world.cwd file = .ok place) :
    ¬ world.SamePlace (Artifacts.declarationPath file) (Artifacts.mapPath file) := by
  rintro ⟨other, first, second⟩
  obtain ⟨suffix, ending, isFirst, rfl⟩ := World.exists_beside leads List.mem_cons_self first
  obtain ⟨suffixToo, endingToo, isSecond, same⟩ :=
    World.exists_beside leads (List.mem_cons_of_mem _ List.mem_cons_self) second
  obtain ⟨rfl, -⟩ := Artifacts.beside_inj ending endingToo same
  have texts := congrArg Path.text (isFirst.trans isSecond.symm)
  exact absurd (List.append_cancel_left texts) (by decide)

theorem pairwise_outputsOf
    (leads : world.files.resolve world.cwd file = .ok place)
    (artifacts : Artifacts) :
    (generator.outputsOf file artifacts).Pairwise fun output other =>
      ¬ world.SamePlace output.1 other.1 := by
  unfold outputsOf
  split
  · exact List.pairwise_pair.mpr (not_samePlace_artifacts leads)
  · exact List.pairwise_singleton _ _

theorem steady_warn (territory : Place → Prop) (start : World) (rejections : List Rejection) :
    (warn rejections).Steady territory start :=
  .of_only (only_warn (fun _ => rfl) _ : Action.Only Request.isMessage _)
    fun request isMessage => by
      cases request with
      | alert message => trivial
      | _ => exact absurd isMessage nofun

/-- The writing of artifacts is steady, and each is changed at most once. -/
theorem exists_leaves_artifacts
    (listed : file ∈ files)
    (leads : world.files.resolve world.cwd file = .ok place)
    (artifacts : Artifacts) :
    ∃ outcome changes,
      Leaves (world.IsArtifact files) world
          ((warn artifacts.rejections).bind fun _ => generator.writeArtifacts file artifacts)
          outcome changes ∧
        (∀ change ∈ changes, ∃ output ∈ generator.outputsOf file artifacts,
          world.files.resolve world.cwd output.1 = .ok change.1) ∧
        (changes.map Prod.fst).Nodup ∧
        (outcome ≠ .failed → ∀ output ∈ generator.outputsOf file artifacts, ∃ place,
          world.files.resolve world.cwd output.1 = .ok place ∧ (place, output.2) ∈ changes) := by
  have noDirectory := @World.IsArtifact.not_directory world files
  have writes (output : Path × Text) (among : output ∈ generator.outputsOf file artifacts) :
      (Request.write output.1 output.2).IsSteady (world.IsArtifact files) world :=
    World.isSteady_write listed leads (mem_paths_of_mem_outputsOf among) _
  obtain ⟨outcome, changes, leaves, complete⟩ :=
    exists_leaves_foldr noDirectory writes (pairwise_outputsOf leads artifacts)
      (leaves_succeed (world.IsArtifact files) world _ _)
  rw [← writeArtifacts_eq] at leaves
  exact ⟨outcome, changes,
    .bind_isHarmless noDirectory (steady_warn _ _ _) (isHarmless_warn _) leaves, complete⟩

/-- The writing of a style sheet is steady, and it changes its artifacts only. -/
theorem exists_writes
    (native : generator.compiler.kind = .native)
    (apart : generator.IsApart world files file) :
    ∃ outcome changes,
      Leaves (world.IsArtifact files) world (generator.writeFile file) outcome changes ∧
        generator.Writes world file outcome changes := by
  obtain ⟨place, leads⟩ := apart.leads
  have noDirectory := @World.IsArtifact.not_directory world files
  have steady := steady_generate native apart
  have harmless := (inquires_generate native file).isHarmless
  unfold writeFile
  cases generated : ((generator.generate file).run world).1 with
  | error problem =>
      refine ⟨.failed, [], .bind_isHarmless noDirectory steady harmless ?_, nofun, .nil,
        fun succeeds => absurd rfl succeeds⟩
      rw [generated]
      exact leaves_fail _ _ _
  | ok artifacts? =>
      cases artifacts? with
      | none =>
          refine ⟨.nothingToDeclare, [], .bind_isHarmless noDirectory steady harmless ?_, nofun,
            .nil, fun _ => ⟨⟨_, generated⟩, ?_⟩⟩
          · rw [generated]
            exact ⟨.ask trivial (.done _), rfl, rfl⟩
          · rw [outputs, generated]
            exact nofun
      | some artifacts =>
          obtain ⟨outcome, changes, leaves, own, distinct, complete⟩ :=
            @exists_leaves_artifacts generator _ _ _ _ apart.listed leads artifacts
          refine ⟨outcome, changes, .bind_isHarmless noDirectory steady harmless ?_,
            fun change among => ?_, distinct, fun succeeds => ⟨⟨_, generated⟩, ?_⟩⟩
          · rw [generated]
            exact leaves
          · obtain ⟨output, isOutput, leadsToo⟩ := own change among
            exact ⟨output.1, mem_paths_of_mem_outputsOf isOutput, leadsToo⟩
          · rw [outputs, generated]
            exact complete succeeds

end Generator
end StyleTypings
