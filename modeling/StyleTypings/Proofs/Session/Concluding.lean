import StyleTypings.Proofs.Files.Exchanges
import StyleTypings.Proofs.Session.Writing

/-!
# What the writing of a style sheet reports

A style sheet is written in two parts. The first one names its classes, and only asks. What
the second one does is told by these classes and by the first write that is refused: it warns
of the names left out, writes what it can, and shows one closing message. So the outcome, the
messages and the files agree, whatever the reason for a refusal.
-/

namespace StyleTypings

namespace Declaration

/-- The names that the declaration of some classes leaves out, in order. -/
def rejected (exportType : ExportType) (classes : List NamedClass) : List Rejection :=
  match exportType with
  | .named => classes.filterMap fun item => Rejection.ofName? item.name
  | .default => []

theorem rejections_of_render?
    {classes : List NamedClass}
    {exportType : ExportType}
    {declaration : Declaration}
    (rendered : render? classes exportType = some declaration) :
    declaration.rejections = rejected exportType classes := by
  unfold render? at rendered
  split at rendered
  · cases rendered
  · cases exportType <;> cases rendered <;> rfl

end Declaration

namespace Artifacts

variable {options : Options} {file : Path} {classes : List NamedClass}

theorem ofClasses?_eq_none_iff : ofClasses? options file classes = none ↔ classes = [] := by
  rw [ofClasses?, Option.map_eq_none_iff, Declaration.render?_eq_none_iff]

theorem rejections_of_ofClasses?
    {artifacts : Artifacts}
    (made : ofClasses? options file classes = some artifacts) :
    artifacts.rejections = Declaration.rejected options.exportType classes := by
  obtain ⟨declaration, rendered, rfl⟩ := Option.map_eq_some_iff.mp made
  exact Declaration.rejections_of_render? rendered

end Artifacts

namespace Generator

open Exchange (tells stores refuses)

variable {generator : Generator} {world : World} {file : Path} {transcript : List Exchange}
  {outcome : WriteOutcome}

/-! ## The parts -/

/-- What is done with the artifacts of a style sheet, or for want of them. -/
def conclude (generator : Generator) (file : Path) :
    Except GenerateError (Option Artifacts) → Action WriteOutcome
  | .error problem => fail problem.message
  | .ok none =>
      (Action.alert .notice (nothingMessage file)).bind fun _ => .done .nothingToDeclare
  | .ok (some artifacts) =>
      (warn artifacts.rejections).bind fun _ => generator.writeArtifacts file artifacts

theorem writeFile_eq (generator : Generator) (file : Path) :
    generator.writeFile file =
      (generator.classesOf file).bind fun classes =>
        generator.conclude file
          (classes.map (Artifacts.ofClasses? generator.options file)) := by
  have second : generator.writeFile file =
      (generator.generate file).bind (generator.conclude file) := by
    unfold writeFile
    refine congrArg _ (funext fun generated => ?_)
    match generated with
    | .error problem => rfl
    | .ok none => rfl
    | .ok (some artifacts) => rfl
  rw [second, generate, Action.bind_assoc]
  rfl

/-- The warnings of the names that the declaration of some classes leaves out. -/
def warnings (generator : Generator) (classes : List NamedClass) : List Alert :=
  (Declaration.rejected generator.options.exportType classes).map fun rejection =>
    ⟨.warn, rejection.message⟩

/-- The outcome of writing all artifacts. -/
def success (generator : Generator) (file : Path) : WriteOutcome :=
  .written (Artifacts.declarationPath file)
    (if generator.options.declarationMap then some (Artifacts.mapPath file) else none)

/-- What is done with the classes of a style sheet, and the outcome. -/
inductive Concludes (generator : Generator) (file : Path) :
    Except GenerateError (List NamedClass) → List Exchange → WriteOutcome → Prop
  /-- The classes are not known. -/
  | unnamed (problem : GenerateError) :
      Concludes generator file (.error problem) [tells ⟨.error, problem.message⟩] .failed
  /-- There are no classes. -/
  | nothing :
      Concludes generator file (.ok []) [tells ⟨.notice, nothingMessage file⟩] .nothingToDeclare
  /-- One of the artifacts cannot be written, and the ones after it are not tried. -/
  | unwritten
      {classes : List NamedClass}
      {artifacts : Artifacts}
      {before after : List (Path × Text)}
      {output : Path × Text}
      (nonempty : classes ≠ [])
      (made : Artifacts.ofClasses? generator.options file classes = some artifacts)
      (split : generator.outputsOf file artifacts = before ++ output :: after)
      (problem : FileError) :
      Concludes generator file (.ok classes)
        ((generator.warnings classes).map tells ++ before.map stores ++
          [refuses output problem, tells ⟨.error, unwritableMessage output.1 problem⟩]) .failed
  /-- All artifacts are written. -/
  | written
      {classes : List NamedClass}
      {artifacts : Artifacts}
      (nonempty : classes ≠ [])
      (made : Artifacts.ofClasses? generator.options file classes = some artifacts) :
      Concludes generator file (.ok classes)
        ((generator.warnings classes).map tells ++
          (generator.outputsOf file artifacts).map stores ++
          [tells ⟨.success, writtenMessage (Artifacts.declarationPath file)⟩])
        (generator.success file)

/-- The artifacts of a style sheet have two names. -/
theorem nodup_outputsOf (generator : Generator) (file : Path) (artifacts : Artifacts) :
    (generator.outputsOf file artifacts).Nodup := by
  unfold outputsOf
  split
  · refine List.nodup_cons.mpr ⟨fun among => ?_, List.nodup_singleton _⟩
    have same := congrArg (Path.text ∘ Prod.fst) (List.mem_singleton.mp among)
    exact absurd (List.append_cancel_left same) (by decide)
  · exact List.nodup_singleton _

/-! ## What is said and written -/

theorem goes_alert {level : AlertLevel} {message : Text} {answer : Unit}
    (goes : (Action.alert level message).Goes transcript answer) :
    transcript = [tells ⟨level, message⟩] :=
  goes.of_request

/-- A message is shown, and that is all. -/
theorem goes_alert_done
    {level : AlertLevel}
    {message : Text}
    {ending : WriteOutcome}
    (goes : ((Action.alert level message).bind fun _ => .done ending).Goes transcript outcome) :
    transcript = [tells ⟨level, message⟩] ∧ outcome = ending := by
  obtain ⟨front, back, answer, rfl, first, second⟩ := goes.of_bind
  obtain ⟨rfl, rfl⟩ := second.of_done
  exact ⟨by rw [goes_alert first, List.append_nil], rfl⟩

theorem goes_forEach_alert
    {message : Rejection → Text}
    {rejections : List Rejection}
    {results : List Unit}
    (goes : (Action.forEach (fun rejection => Action.alert .warn (message rejection))
      rejections).Goes transcript results) :
    transcript = rejections.map fun rejection => tells ⟨.warn, message rejection⟩ := by
  induction rejections generalizing transcript results with
  | nil => exact goes.of_done.1
  | cons first rest inductionHypothesis =>
      obtain ⟨front, back, answer, rfl, shown, others⟩ := goes.of_bind
      obtain ⟨middle, last, values, rfl, later, ends⟩ := others.of_bind
      obtain ⟨rfl, -⟩ := ends.of_done
      rw [goes_alert shown, inductionHypothesis later, List.append_nil]
      rfl

theorem goes_warn {rejections : List Rejection} {answer : Unit}
    (goes : (warn rejections).Goes transcript answer) :
    transcript = rejections.map fun rejection => tells ⟨.warn, rejection.message⟩ := by
  obtain ⟨front, back, results, rfl, shown, ends⟩ := goes.of_bind
  obtain ⟨rfl, -⟩ := ends.of_done
  rw [goes_forEach_alert shown, List.append_nil]

/-- A write is answered, and the rest is done or the refusal is reported. -/
theorem goes_writeOrFail
    {output : Path × Text}
    {next : Action WriteOutcome}
    (goes : (writeOrFail output.1 output.2 next).Goes transcript outcome) :
    (∃ later, transcript = stores output :: later ∧ next.Goes later outcome) ∨
      ∃ problem, transcript =
          [refuses output problem, tells ⟨.error, unwritableMessage output.1 problem⟩] ∧
        outcome = .failed := by
  obtain ⟨front, back, answer, rfl, asked, later⟩ := goes.of_bind
  rw [Action.Goes.of_request asked]
  match answer with
  | .ok () => exact .inl ⟨back, rfl, later⟩
  | .error problem =>
      obtain ⟨rfl, rfl⟩ := goes_alert_done later
      exact .inr ⟨problem, rfl, rfl⟩

/-- Files are written one after the other until one is refused. -/
theorem goes_foldr
    {outputs : List (Path × Text)}
    {last : Action WriteOutcome}
    (goes : (outputs.foldr (fun output rest => writeOrFail output.1 output.2 rest) last).Goes
      transcript outcome) :
    (∃ later, transcript = outputs.map stores ++ later ∧ last.Goes later outcome) ∨
      ∃ before output after problem, outputs = before ++ output :: after ∧
        transcript = before.map stores ++
          [refuses output problem, tells ⟨.error, unwritableMessage output.1 problem⟩] ∧
        outcome = .failed := by
  -- The first refusal ends the writing, so what was answered before are writes that went well.
  induction outputs generalizing transcript with
  | nil => exact .inl ⟨transcript, rfl, goes⟩
  | cons first rest inductionHypothesis =>
      rcases goes_writeOrFail goes with ⟨later, rfl, others⟩ | ⟨problem, rfl, rfl⟩
      · rcases inductionHypothesis others with
          ⟨later, rfl, ends⟩ | ⟨before, output, after, problem, rfl, rfl, rfl⟩
        · exact .inl ⟨later, rfl, ends⟩
        · exact .inr ⟨first :: before, output, after, problem, rfl, rfl, rfl⟩
      · exact .inr ⟨[], first, rest, problem, rfl, rfl, rfl⟩

/-- The second part does what the classes and the refusals tell. -/
theorem concludes_of_goes
    {classes : Except GenerateError (List NamedClass)}
    (goes : (generator.conclude file
      (classes.map (Artifacts.ofClasses? generator.options file))).Goes transcript outcome) :
    generator.Concludes file classes transcript outcome := by
  cases classes with
  | error problem =>
      obtain ⟨rfl, rfl⟩ := goes_alert_done goes
      exact .unnamed problem
  | ok classes =>
      cases made : Artifacts.ofClasses? generator.options file classes with
      | none =>
          simp only [Except.map, made] at goes
          obtain ⟨rfl, rfl⟩ := goes_alert_done goes
          obtain rfl := Artifacts.ofClasses?_eq_none_iff.mp made
          exact .nothing
      | some artifacts =>
          have nonempty : classes ≠ [] := by
            rintro rfl
            rw [Artifacts.ofClasses?_eq_none_iff.mpr rfl] at made
            cases made
          simp only [Except.map, made] at goes
          obtain ⟨front, back, answer, rfl, warned, wrote⟩ := goes.of_bind
          have isWarned : front = (generator.warnings classes).map tells := by
            rw [goes_warn warned, Artifacts.rejections_of_ofClasses? made, warnings,
              List.map_map]
            rfl
          rw [writeArtifacts_eq] at wrote
          rw [isWarned]
          rcases goes_foldr wrote with
            ⟨later, rfl, ends⟩ | ⟨before, output, after, problem, split, rfl, rfl⟩
          · obtain ⟨rfl, rfl⟩ := goes_alert_done ends
            rw [← List.append_assoc]
            exact .written nonempty made
          · rw [← List.append_assoc]
            exact .unwritten nonempty made split problem

/-! ## What the second part comes to -/

/-- The closing message that belongs to an outcome. -/
def IsClosedBy (file : Path) : WriteOutcome → Alert → Prop
  | .written declaration _, closing => closing = ⟨.success, writtenMessage declaration⟩
  | .nothingToDeclare, closing => closing = ⟨.notice, nothingMessage file⟩
  | .failed, closing => closing.level = .error

/-- The names that are left out, if there are classes. -/
def warningsOf (generator : Generator) :
    Except GenerateError (List NamedClass) → List Alert
  | .error _ => []
  | .ok classes => generator.warnings classes

theorem warnings_nil (generator : Generator) : generator.warnings [] = [] := by
  unfold warnings Declaration.rejected
  cases generator.options.exportType <;> rfl

/-- What is written and shown while some warnings come before some writes. -/
theorem filterMap_written?_transcript
    (warnings : List Alert)
    (outputs : List (Path × Text))
    (rest : List Exchange) :
    (warnings.map tells ++ outputs.map stores ++ rest).filterMap Exchange.written? =
      outputs ++ rest.filterMap Exchange.written? := by
  simp [List.filterMap_append, List.filterMap_map, Function.comp_def]

theorem flatMap_shown_transcript
    (warnings : List Alert)
    (outputs : List (Path × Text))
    (rest : List Exchange) :
    (warnings.map tells ++ outputs.map stores ++ rest).flatMap Exchange.shown =
      warnings ++ rest.flatMap Exchange.shown := by
  simp [List.flatMap_append, List.flatMap_map]

namespace Concludes

variable {classes : Except GenerateError (List NamedClass)}
  (concludes : generator.Concludes file classes transcript outcome)

include concludes

/-- Nothing is written, or the first ones of the artifacts. -/
theorem wrote_cases :
    transcript.filterMap Exchange.written? = [] ∨
      ∃ found artifacts, classes = .ok found ∧ found ≠ [] ∧
        Artifacts.ofClasses? generator.options file found = some artifacts ∧
        transcript.filterMap Exchange.written? <+: generator.outputsOf file artifacts := by
  cases concludes with
  | unnamed problem => exact .inl rfl
  | nothing => exact .inl rfl
  | unwritten nonempty made split problem =>
      refine .inr ⟨_, _, rfl, nonempty, made, ?_⟩
      rw [filterMap_written?_transcript, split]
      exact List.prefix_append_right_inj _ |>.mpr List.nil_prefix
  | written nonempty made =>
      refine .inr ⟨_, _, rfl, nonempty, made, ?_⟩
      rw [filterMap_written?_transcript]
      exact (List.append_nil _).symm ▸ List.prefix_refl _

theorem shown :
    ∃ closing, transcript.flatMap Exchange.shown = generator.warningsOf classes ++ [closing] ∧
      IsClosedBy file outcome closing := by
  cases concludes with
  | unnamed problem => exact ⟨_, rfl, rfl⟩
  | nothing =>
      rw [warningsOf, generator.warnings_nil]
      exact ⟨_, rfl, rfl⟩
  | unwritten nonempty made split problem =>
      rw [flatMap_shown_transcript]
      exact ⟨_, rfl, rfl⟩
  | written nonempty made =>
      rw [flatMap_shown_transcript]
      exact ⟨_, rfl, rfl⟩

theorem nothing_iff : outcome = .nothingToDeclare ↔ classes = .ok [] := by
  cases concludes with
  | unnamed problem => exact ⟨nofun, nofun⟩
  | nothing => exact ⟨fun _ => rfl, fun _ => rfl⟩
  | unwritten nonempty made split problem =>
      exact ⟨nofun, fun same => absurd (Except.ok.inj same) nonempty⟩
  | written nonempty made =>
      exact ⟨nofun, fun same => absurd (Except.ok.inj same) nonempty⟩

theorem named
    {declaration : Path}
    {map : Option Path}
    (isWritten : outcome = .written declaration map) :
    declaration = Artifacts.declarationPath file ∧
      map = if generator.options.declarationMap then some (Artifacts.mapPath file) else none := by
  cases concludes with
  | written nonempty made => exact WriteOutcome.written.inj isWritten.symm
  | _ => cases isWritten

/-- The outcome is that all was written just if all was. -/
theorem written_iff :
    (∃ declaration map, outcome = .written declaration map) ↔
      ∃ artifacts, classes.map (Artifacts.ofClasses? generator.options file) =
          .ok (some artifacts) ∧
        ∀ output ∈ generator.outputsOf file artifacts,
          output ∈ transcript.filterMap Exchange.written? := by
  cases concludes with
  | unnamed problem => exact ⟨nofun, nofun⟩
  | nothing =>
      refine ⟨nofun, fun ⟨artifacts, made, _⟩ => ?_⟩
      rw [Except.map, Artifacts.ofClasses?_eq_none_iff.mpr rfl] at made
      cases made
  | @unwritten found artifacts before after output nonempty made split problem =>
      refine ⟨nofun, fun ⟨others, same, all⟩ => ?_⟩
      obtain rfl : artifacts = others := by
        rw [Except.map, made] at same
        exact Option.some.inj (Except.ok.inj same)
      -- The refused artifact would have to be among those that were written before it.
      have distinct := nodup_outputsOf generator file artifacts
      rw [filterMap_written?_transcript] at all
      rw [split] at all distinct
      have early : output ∈ before :=
        List.append_nil before ▸ all output (List.mem_append_right _ List.mem_cons_self)
      exact absurd List.mem_cons_self (List.disjoint_of_nodup_append distinct early)
  | @written found artifacts nonempty made =>
      refine ⟨fun _ => ⟨artifacts, ?_, fun output among => ?_⟩, fun _ => ⟨_, _, rfl⟩⟩
      · rw [Except.map, made]
      · rw [filterMap_written?_transcript]
        exact List.mem_append_left _ among

end Concludes

/-! ## What the files hold afterwards -/

/-- What is written is in the files afterwards, and nothing else is changed. -/
theorem holds_artifacts
    {place : Place}
    (leads : world.files.resolve world.cwd file = .ok place)
    (artifacts : Artifacts) :
    let second := (warn artifacts.rejections).bind fun _ => generator.writeArtifacts file artifacts
    let after := (second.run world).2
    (∀ place, (∀ output ∈ second.wrote world,
        world.files.resolve world.cwd output.1 ≠ .ok place) →
          after.files.find? place = world.files.find? place) ∧
      ∀ output ∈ second.wrote world, after.files.read after.cwd output.1 = .ok output.2 := by
  intro second after
  have noDirectory := @World.IsArtifact.not_directory world [file]
  have begins := (Action.undisturbed_steady noDirectory (α := WriteOutcome)).begins
  obtain ⟨outcome, changes, leaves, own, distinct, -⟩ :=
    @exists_leaves_artifacts generator world [file] file place List.mem_cons_self leads artifacts
  have steady (request : Request) (made : request ∈ second.requests world) :=
    leaves.steady.mem_requests noDirectory made
  have wrote := leaves.steady.wrote_eq noDirectory begins
  have distinct := leaves.changes ▸ distinct
  have isAfter : after = world.afterAll (second.requests world) := Action.run_snd _ _
  rw [isAfter]
  refine ⟨fun elsewhere apart => ?_, fun output among => ?_⟩
  · refine World.find?_afterAll_of_notMem begins steady fun changed => ?_
    obtain ⟨change, isChange, rfl⟩ := List.mem_map.mp changed
    have isWrite : (Except.ok change.1, change.2) ∈
        (second.wrote world).map (Prod.map (world.files.resolve world.cwd) id) :=
      wrote ▸ List.mem_map_of_mem isChange
    obtain ⟨output, among, same⟩ := List.mem_map.mp isWrite
    exact apart output among (congrArg Prod.fst same)
  · have isWrite : (world.files.resolve world.cwd output.1, output.2) ∈
        (world.changes (second.requests world)).map (Prod.map .ok id) :=
      wrote ▸ List.mem_map_of_mem among
    obtain ⟨change, isChange, same⟩ := List.mem_map.mp isWrite
    have leadsToo : world.files.resolve world.cwd output.1 = .ok change.1 :=
      (congrArg Prod.fst same).symm
    have text : change.2 = output.2 := congrArg Prod.snd same
    exact text ▸ World.read_afterAll_of_mem begins steady distinct isChange leadsToo

/-! ## The whole -/

/-- The writing of a style sheet reports what it did. -/
structure Reports (generator : Generator) (world : World) (file : Path) : Prop where
  /-- The declaration is written first, then its map if maps are wanted, or the first one
  only, or nothing. -/
  written : (generator.writeFile file).wrote world <+: generator.outputs world file
  /-- A place to which no written path leads holds what it held. -/
  kept : ∀ place,
    (∀ output ∈ (generator.writeFile file).wrote world,
      world.files.resolve world.cwd output.1 ≠ .ok place) →
    ((generator.writeFile file).run world).2.files.find? place = world.files.find? place
  /-- No file changes unless there are classes. -/
  idle : (∀ classes, ((generator.classesOf file).run world).1 = .ok classes → classes = []) →
    ((generator.writeFile file).run world).2.files = world.files
  /-- Nothing but the files and the messages changes. -/
  quiet : ∃ files alerts,
    ((generator.writeFile file).run world).2 = { world with files, alerts }
  /-- The outcome is that the artifacts were written just if this call wrote them all and the
  files hold them. -/
  written_iff : (∃ declaration map,
      ((generator.writeFile file).run world).1 = .written declaration map) ↔
    ∃ artifacts, ((generator.generate file).run world).1 = .ok (some artifacts) ∧
      ∀ output ∈ generator.outputsOf file artifacts,
        output ∈ (generator.writeFile file).wrote world ∧
          ((generator.writeFile file).run world).2.files.read
            ((generator.writeFile file).run world).2.cwd output.1 = .ok output.2
  /-- The outcome names the artifacts that were written. -/
  named : ∀ declaration map,
    ((generator.writeFile file).run world).1 = .written declaration map →
      declaration = Artifacts.declarationPath file ∧
        map = if generator.options.declarationMap then some (Artifacts.mapPath file) else none
  /-- The outcome is that there is nothing to declare just if there are no classes. -/
  nothing_iff : ((generator.writeFile file).run world).1 = .nothingToDeclare ↔
    ((generator.classesOf file).run world).1 = .ok []
  /-- Each name that is left out is warned of, in order, and the closing message is that of the
  outcome. -/
  alerts : ∃ closing,
    ((generator.writeFile file).run world).2.alerts =
        closing :: (generator.warningsOf ((generator.classesOf file).run world).1).reverse ++
          world.alerts ∧
      IsClosedBy file ((generator.writeFile file).run world).1 closing

theorem only_conclude (generated : Except GenerateError (Option Artifacts)) :
    Action.Only Request.isQuiet (generator.conclude file generated) := by
  have alerts (level : AlertLevel) (message : Text) (ending : WriteOutcome) :
      Action.Only Request.isQuiet
        ((Action.alert level message).bind fun _ => .done ending) :=
    (Action.Only.request rfl).bind fun _ => .done ending
  have writes (output : Path × Text) (next : Action WriteOutcome)
      (later : Action.Only Request.isQuiet next) :
      Action.Only Request.isQuiet (writeOrFail output.1 output.2 next) := by
    refine (Action.Only.request rfl).bind fun answer => ?_
    match answer with
    | .ok () => exact later
    | .error problem => exact alerts _ _ _
  match generated with
  | .error problem => exact alerts _ _ _
  | .ok none => exact alerts _ _ _
  | .ok (some artifacts) =>
      refine (only_warn (fun _ => rfl) artifacts.rejections).bind fun _ => ?_
      rw [writeArtifacts_eq]
      induction generator.outputsOf file artifacts with
      | nil => exact alerts _ _ _
      | cons first rest inductionHypothesis => exact writes first _ inductionHypothesis

/-- Artifacts are made of the classes. -/
theorem generated_eq (generator : Generator) (world : World) (file : Path) :
    ((generator.generate file).run world).1 =
      ((generator.classesOf file).run world).1.map
        (Artifacts.ofClasses? generator.options file) := by
  rw [generate, Action.run_bind]
  rfl

/-- The second part is done in the world of the first one. -/
theorem run_writeFile
    (native : generator.compiler.kind = .native)
    (world : World)
    (file : Path) :
    let second := generator.conclude file ((generator.generate file).run world).1
    (generator.writeFile file).run world = second.run world ∧
      (generator.writeFile file).wrote world = second.wrote world ∧
      (generator.writeFile file).shown world = second.shown world := by
  have inquires := inquires_classesOf native file
  rw [writeFile_eq, Action.run_bind, Action.wrote_bind, Action.shown_bind, inquires.run_snd,
    inquires.wrote_eq_nil, inquires.shown_eq_nil, generated_eq]
  exact ⟨rfl, rfl, List.append_nil _⟩

/-- What is written is in the files afterwards, and nothing else is changed. -/
theorem holds_writeFile
    (native : generator.compiler.kind = .native)
    (world : World)
    (file : Path) :
    let after := ((generator.writeFile file).run world).2
    (∀ place, (∀ output ∈ (generator.writeFile file).wrote world,
        world.files.resolve world.cwd output.1 ≠ .ok place) →
          after.files.find? place = world.files.find? place) ∧
      ∀ output ∈ (generator.writeFile file).wrote world,
        after.files.read after.cwd output.1 = .ok output.2 := by
  obtain ⟨ran, wrote, -⟩ := run_writeFile native world file
  simp only [ran, wrote]
  match generated : ((generator.generate file).run world).1 with
  | .error problem => exact ⟨fun _ _ => rfl, nofun⟩
  | .ok none => exact ⟨fun _ _ => rfl, nofun⟩
  | .ok (some artifacts) =>
      obtain ⟨place, leads⟩ := exists_place_of_generate generated
      exact holds_artifacts leads artifacts

theorem reports_writeFile
    (native : generator.compiler.kind = .native)
    (world : World)
    (file : Path) :
    generator.Reports world file := by
  let second := generator.conclude file ((generator.generate file).run world).1
  obtain ⟨ran, wrote, shown⟩ := run_writeFile native world file
  obtain ⟨kept, holds⟩ := holds_writeFile native world file
  have isGenerated := generator.generated_eq world file
  have concludes : generator.Concludes file ((generator.classesOf file).run world).1
      (second.exchanges world) ((generator.writeFile file).run world).1 := by
    rw [ran]
    refine concludes_of_goes ?_
    rw [← isGenerated]
    exact second.goes_run world
  constructor
  case kept => exact kept
  case named => exact fun declaration map => concludes.named
  case nothing_iff => exact concludes.nothing_iff
  case written =>
    rw [wrote]
    rcases concludes.wrote_cases with nothing | ⟨found, artifacts, isFound, -, made, begins⟩
    · have unwritten : second.wrote world = [] := nothing
      exact unwritten ▸ List.nil_prefix
    · have isOutputs : generator.outputs world file = generator.outputsOf file artifacts := by
        rw [outputs, isGenerated, isFound, Except.map, made]
      rw [isOutputs]
      exact begins
  case idle =>
    intro none
    refine Action.files_run_of_wrote (wrote.trans ?_)
    rcases concludes.wrote_cases with nothing | ⟨found, artifacts, isFound, nonempty, -⟩
    · exact nothing
    · exact absurd (none found isFound) nonempty
  case quiet =>
    rw [ran]
    exact (only_conclude _).exists_run world
  case written_iff =>
    rw [concludes.written_iff, ← isGenerated]
    refine exists_congr fun artifacts => and_congr_right fun _ => forall₂_congr fun output _ => ?_
    rw [wrote]
    exact ⟨fun among => ⟨among, holds output (wrote ▸ among)⟩, And.left⟩
  case alerts =>
    obtain ⟨closing, told, closes⟩ := concludes.shown
    refine ⟨closing, ?_, closes⟩
    rw [Action.alerts_run, shown, Action.shown_eq, told, List.reverse_append]
    rfl

/-- What the writing of a style sheet does is told by its classes and by the first write that
is refused, whatever the reason. So it leaves its artifacts and nothing else, its outcome is
that they were written just if they were, and its messages are the warnings of the names that
are left out and the message of the outcome. -/
theorem writeFile_reports
    (native : generator.compiler.kind = .native)
    (file : Path) :
    (∀ transcript outcome, (generator.writeFile file).Goes transcript outcome →
      ∃ questions later classes, transcript = questions ++ later ∧
        (∀ exchange ∈ questions, exchange.request.isQuestion = true) ∧
        (generator.classesOf file).Goes questions classes ∧
        generator.Concludes file classes later outcome) ∧
      ∀ world, generator.Reports world file := by
  refine ⟨fun transcript outcome goes => ?_, fun world => reports_writeFile native world file⟩
  rw [writeFile_eq] at goes
  obtain ⟨questions, later, classes, split, named, concluded⟩ := goes.of_bind
  exact ⟨questions, later, classes, split, named.of_only (inquires_classesOf native file), named,
    concludes_of_goes concluded⟩

theorem writeFile_reports_importing :
    let after := ((nativeGenerator.writeFile "main.css").run importingWorld).2
    nativeGenerator.compiler.kind = .native ∧
      (∃ artifacts, ((nativeGenerator.generate "main.css").run importingWorld).1 =
          .ok (some artifacts) ∧
        after.files.read after.cwd "main.css.d.ts" = .ok artifacts.declaration ∧
        after.files.read after.cwd "main.css.d.ts.map" = .ok artifacts.map) ∧
      after.alerts.head? = some ⟨.success, writtenMessage "main.css.d.ts"⟩ := by
  intro after
  obtain ⟨-, reports⟩ := @writeFile_reports nativeGenerator rfl "main.css"
  obtain ⟨-, -, -, -, isWritten, -, -, closing, alerts, closes⟩ := reports importingWorld
  obtain ⟨artifacts, generated, all⟩ := isWritten.mp ⟨_, _, writeFile_importing⟩
  rw [writeFile_importing] at closes
  refine ⟨rfl, ⟨artifacts, generated, (all _ List.mem_cons_self).2,
    (all _ (List.mem_cons_of_mem _ List.mem_cons_self)).2⟩, ?_⟩
  rw [alerts, closes]
  rfl

end Generator
end StyleTypings
