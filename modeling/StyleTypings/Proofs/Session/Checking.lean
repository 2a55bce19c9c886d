import StyleTypings.Proofs.Files.Ordering
import StyleTypings.Proofs.Session.Generating
import StyleTypings.Proofs.Session.Scheduling

/-!
# Checks in any order

A check only asks about files and shows messages, so the checks of a batch may take their
steps in any order. A style sheet passes unless its artifacts cannot be made or differ from
the files beside it, and exactly one error is shown for each that does not pass.
-/

namespace StyleTypings

/-! ## Generating only asks -/

namespace LinkedSheet

/-- To find a file is to ask what paths name. -/
theorem only_findFile
    {allowed : Request → Bool}
    (isAllowed : ∀ path, allowed (.kind path) = true)
    (candidates : List Path) :
    Action.Only allowed (findFile candidates) := by
  refine Action.Only.findFirst (fun path => ?_) candidates
  split
  · refine (Action.Only.request (isAllowed path)).bind fun kind => ?_
    match kind with
    | some (.file executable) => exact .done true
    | some .directory | none => exact .done false
  · exact .done false

theorem inquires_findFile (candidates : List Path) : (findFile candidates).Inquires :=
  only_findFile (fun _ => rfl) candidates

theorem inquires_linkImports
    (options : ImportOptions)
    (unit : SourceUnit)
    (rules : List ImportRule)
    (cursor : Nat)
    (seen : List Path) :
    (linkImports options unit rules cursor seen).Inquires := by
  induction unit, rules, cursor, seen using linkImports.induct with
  | case1 unit cursor seen =>
      rw [linkImports]
      exact .done _
  | case2 unit cursor seen rule rest within behind again =>
      rw [linkImports]
      refine (inquires_findFile _).bind fun found => ?_
      cases found with
      | none => exact .done _
      | some target =>
          by_cases new : target.isAdmissible = true ∧ hasSeen seen target = false
          · simp only [dif_pos new]
            refine (Action.Only.request rfl).bind fun content => ?_
            cases content with
            | error problem => exact .done _
            | ok source =>
                cases parsed : SourceUnit.ofFile target source with
                | error problem =>
                    simp only [parsed]
                    exact .done _
                | ok imported =>
                    simp only [parsed]
                    refine (within target new imported).bind fun linked => ?_
                    cases linked with
                    | error problem => exact .done _
                    | ok inner =>
                        refine (behind target new inner).bind fun others => ?_
                        cases others <;> exact .done _
          · simp only [dif_neg new]
            refine again.bind fun others => ?_
            cases others <;> exact .done _

end LinkedSheet

theorem Native.inquires_compile (options : CompileOptions) (source : Text) :
    (Native.compile options source).Inquires := by
  have linked : (LinkedSheet.link options.imports options.filename source).Inquires := by
    unfold LinkedSheet.link
    cases SourceUnit.ofFile options.filename source with
    | error problem => exact .done _
    | ok unit =>
        refine (LinkedSheet.inquires_linkImports _ _ _ _ _).bind fun linked => ?_
        cases linked <;> exact .done _
  refine linked.bind fun linked => ?_
  cases linked <;> exact .done _

namespace Generator

variable {generator : Generator}

theorem inquires_classesOf
    (native : generator.compiler.kind = .native)
    (file : Path) :
    (generator.classesOf file).Inquires := by
  refine (Action.Only.request rfl).bind fun content => ?_
  cases content with
  | error problem => exact .done _
  | ok source =>
      simp only [compile_native native]
      exact (Native.inquires_compile _ source).bind fun output => .done _

theorem inquires_generate
    (native : generator.compiler.kind = .native)
    (file : Path) :
    (generator.generate file).Inquires :=
  (inquires_classesOf native file).bind fun _ => .done _

theorem inquires_isUpToDate (file : Path) (artifacts : Artifacts) :
    (generator.isUpToDate file artifacts).Inquires := by
  have held (path : Path) (text : Text) : (holds path text).Inquires := by
    refine (Action.Only.request rfl).bind fun content => ?_
    cases content <;> exact .done _
  refine (held _ _).bind fun isSame => ?_
  split
  · exact held _ _
  · exact .done isSame

/-- Warnings are messages only. -/
theorem only_warn
    {allowed : Request → Bool}
    (isAllowed : ∀ message, allowed (.alert message) = true)
    (rejections : List Rejection) :
    Action.Only allowed (warn rejections) := by
  have shown (rejection : Rejection) :
      Action.Only allowed (Action.alert .warn rejection.message) :=
    Action.Only.request (isAllowed _)
  exact (Action.Only.forEach shown rejections).bind fun _ => .done ()

theorem isHarmless_warn (rejections : List Rejection) : (warn rejections).IsHarmless :=
  only_warn (fun _ => rfl) rejections

/-- A check with the native compiler writes no file and runs no command. -/
theorem isHarmless_checkFile
    (native : generator.compiler.kind = .native)
    (file : Path) :
    (generator.checkFile file).IsHarmless := by
  have reported (passes : Bool) : (reportDifference file passes).IsHarmless := by
    cases passes with
    | true => exact .done true
    | false => exact (Action.Only.request rfl).bind fun _ => .done false
  refine (inquires_generate native file).isHarmless.bind fun generated => ?_
  match generated with
  | .error problem => exact (Action.Only.request rfl).bind fun _ => reported false
  | .ok none => exact .done true
  | .ok (some artifacts) =>
      exact (isHarmless_warn _).bind fun _ =>
        (inquires_isUpToDate file artifacts).isHarmless.bind reported

/-! ## What a check comes to -/

/-- The artifacts of a style sheet cannot be made, or the files beside it do not hold
them. -/
def IsStale (generator : Generator) (world : World) (file : Path) : Prop :=
  match ((generator.generate file).run world).1 with
  | .error _ => True
  | .ok none => False
  | .ok (some artifacts) =>
      world.files.read world.cwd (Artifacts.declarationPath file) ≠
          .ok artifacts.declaration ∨
        generator.options.declarationMap = true ∧
          world.files.read world.cwd (Artifacts.mapPath file) ≠ .ok artifacts.map

instance (generator : Generator) (world : World) (file : Path) :
    Decidable (generator.IsStale world file) :=
  match generated : ((generator.generate file).run world).1 with
  | .error _ => .isTrue (by simp [IsStale, generated])
  | .ok none => .isFalse (by simp [IsStale, generated])
  | .ok (some artifacts) =>
      decidable_of_iff
        (world.files.read world.cwd (Artifacts.declarationPath file) ≠
            .ok artifacts.declaration ∨
          generator.options.declarationMap = true ∧
            world.files.read world.cwd (Artifacts.mapPath file) ≠ .ok artifacts.map)
        (by simp [IsStale, generated])

/-- The messages of the check of a style sheet, the last first: a warning of every name that
is left out, and an error if it does not pass. -/
def checkMessages (generator : Generator) (world : World) (file : Path) : List Alert :=
  (if generator.IsStale world file then [⟨.error, differentMessage file⟩] else []) ++
    match ((generator.generate file).run world).1 with
    | .ok (some artifacts) =>
        (artifacts.rejections.map fun rejection => ⟨.warn, rejection.message⟩).reverse
    | _ => []

theorem run_holds (world : World) (path : Path) (text : Text) :
    (holds path text).run world =
      (decide (world.files.read world.cwd path = .ok text), world) := by
  unfold holds
  rw [Action.run_bind, LinkedSheet.run_readText]
  cases world.files.read world.cwd path with
  | error problem => simp
  | ok found =>
      have same : (found == text) = decide (found = text) := Bool.eq_iff_iff.mpr (by simp)
      simp only [Action.run_done, Except.ok.injEq, same]

theorem run_isUpToDate (world : World) (file : Path) (artifacts : Artifacts) :
    ((generator.isUpToDate file artifacts).run world).1 =
      !decide (world.files.read world.cwd (Artifacts.declarationPath file) ≠
          .ok artifacts.declaration ∨
        generator.options.declarationMap = true ∧
          world.files.read world.cwd (Artifacts.mapPath file) ≠ .ok artifacts.map) := by
  unfold isUpToDate
  rw [Action.run_bind, run_holds]
  by_cases same : world.files.read world.cwd (Artifacts.declarationPath file) =
      .ok artifacts.declaration
  · cases maps : generator.options.declarationMap with
    | false => simp [same]
    | true => simp [same, run_holds]
  · simp [same]

theorem run_reportDifference (world : World) (file : Path) (passes : Bool) :
    ((reportDifference file passes).run world).1 = passes := by
  cases passes <;> rfl

theorem shown_reportDifference (world : World) (file : Path) (passes : Bool) :
    (reportDifference file passes).shown world =
      if passes then [] else [⟨.error, differentMessage file⟩] := by
  cases passes <;> rfl

theorem shown_warn (world : World) (rejections : List Rejection) :
    (warn rejections).shown world =
      (rejections.map fun rejection => ⟨.warn, rejection.message⟩).reverse := by
  unfold warn
  rw [Action.shown_bind, Action.shown_done, List.nil_append]
  induction rejections generalizing world with
  | nil => rfl
  | cons first rest inductionHypothesis =>
      rw [Action.forEach, Action.shown_bind, Action.shown_bind, Action.shown_done,
        List.nil_append, inductionHypothesis, List.map_cons, List.reverse_cons]
      rfl

/-- A style sheet passes its check just if it is not stale, and the check shows these
messages. -/
theorem checkFile_eq
    (native : generator.compiler.kind = .native)
    (world : World)
    (file : Path) :
    ((generator.checkFile file).run world).1 = !decide (generator.IsStale world file) ∧
      (generator.checkFile file).shown world = generator.checkMessages world file := by
  have inquires := inquires_generate native file
  unfold checkFile checkMessages
  rw [Action.run_bind, Action.shown_bind, inquires.run_snd, inquires.shown_eq_nil,
    List.append_nil]
  match generated : ((generator.generate file).run world).1 with
  | .error problem =>
      have stale : generator.IsStale world file := by simp [IsStale, generated]
      simp only [stale, Action.run_bind, Action.shown_bind, run_reportDifference,
        shown_reportDifference]
      exact ⟨rfl, rfl⟩
  | .ok none =>
      have current : ¬ generator.IsStale world file := by simp [IsStale, generated]
      simp [current]
  | .ok (some artifacts) =>
      have agrees := (isHarmless_warn artifacts.rejections).agrees_run world
      have passes : ((generator.isUpToDate file artifacts).run
          ((warn artifacts.rejections).run world).2).1 =
            !decide (generator.IsStale world file) := by
        rw [run_isUpToDate, agrees.files, agrees.cwd]
        simp only [IsStale, generated]
      have silent : (generator.isUpToDate file artifacts).shown
          ((warn artifacts.rejections).run world).2 = [] :=
        (inquires_isUpToDate file artifacts).shown_eq_nil _
      simp only [Action.run_bind, Action.shown_bind, run_reportDifference,
        shown_reportDifference, shown_warn, passes, silent]
      by_cases stale : generator.IsStale world file <;> simp [stale]

/-- Of the messages of a check the errors are those of style sheets that do not pass. -/
theorem filter_checkMessages (generator : Generator) (world : World) (file : Path) :
    (generator.checkMessages world file).filter (fun message => message.level == .error) =
      if generator.IsStale world file then [⟨.error, differentMessage file⟩] else [] := by
  have warnings (rejections : List Rejection) :
      ((rejections.map fun rejection => (⟨.warn, rejection.message⟩ : Alert)).reverse.filter
        fun message => message.level == .error) = [] := by
    simp
  unfold checkMessages
  rw [List.filter_append]
  split <;> split <;> simp [warnings]

/-- The errors of the checks of some files: one for each that does not pass. -/
theorem filter_flatMap_checkMessages
    (generator : Generator)
    (world : World)
    (files : List Path) :
    (files.flatMap (generator.checkMessages world)).filter
        (fun message => message.level == .error) =
      (files.filter fun file => generator.IsStale world file).map fun file =>
        ⟨.error, differentMessage file⟩ := by
  induction files with
  | nil => rfl
  | cons file rest inductionHypothesis =>
      rw [List.flatMap_cons, List.filter_append, inductionHypothesis, filter_checkMessages]
      by_cases stale : generator.IsStale world file <;> simp [stale]

end Generator

/-! ## Batches of checks -/

namespace Batch

/-- The results of harmless tasks that are done one after the other. -/
theorem run_forEach
    {α : Type}
    {task : Path → Action α}
    (harmless : ∀ file, (task file).IsHarmless)
    (world : World)
    (files : List Path) :
    ((Action.forEach (labelled task) files).run world).1 =
        files.map (fun file => (file, ((task file).run world).1)) ∧
      ((Action.forEach (labelled task) files).shown world).Perm
        (files.flatMap fun file => (task file).shown world) := by
  obtain ⟨results, requests⟩ := @run_labelled α world world _ _ task files
    (Action.undisturbed_isHarmless world) (fun file _ => harmless file) (.refl world)
  exact ⟨results, ((Action.forEach (labelled task) files).shown_perm world).trans
    (shown_of_perm (.of_eq requests))⟩

end Batch

namespace Generator

variable {generator : Generator} {environment : Environment} {pattern : Text}
  {selection : FilePattern} {world : World} {limit : Nat}

/-- The summary of checks is made of their results in the order of the files. -/
theorem ofChecks_map (generator : Generator) (world : World) (files : List Path) :
    Summary.ofChecks (files.map fun file => (file, !decide (generator.IsStale world file))) =
      ⟨files.length, files.filter fun file => generator.IsStale world file⟩ := by
  unfold Summary.ofChecks
  rw [List.length_map, List.filter_map, List.map_map]
  simp [Function.comp_def]

/-- The checks of files in strict order, done one after the other. -/
theorem checkFiles_eq
    {files : List Path}
    (native : generator.compiler.kind = .native)
    (strict : files.Pairwise fun path other => path.key < other.key)
    (world : World) :
    ((generator.checkFiles files).run world).1 =
        ⟨files.length, files.filter fun file => generator.IsStale world file⟩ ∧
      ((generator.checkFiles files).shown world).Perm
        (files.flatMap (generator.checkMessages world)) := by
  obtain ⟨results, messages⟩ := Batch.run_forEach (isHarmless_checkFile native) world files
  simp only [(checkFile_eq native world _).1, (checkFile_eq native world _).2] at results messages
  unfold checkFiles Batch.perform
  constructor
  · simp only [Action.run_bind, Action.run_done, results]
    rw [Batch.inPathOrder_eq strict (.refl _), ofChecks_map]
  · simpa only [Action.shown_bind, Action.shown_done, List.nil_append] using messages

theorem inquires_ofText (environment : Environment) (pattern : Text) :
    (FilePattern.ofText environment pattern).Inquires := by
  refine (Action.Only.request rfl).bind fun kind => ?_
  simp only
  split <;> exact .done _

/-- What is checked for a pattern that selects some files. -/
theorem listDifferent_eq
    (selects : ((FilePattern.ofText environment pattern).run world).1 = .ok selection)
    {files : List Path}
    (listed : selection.select
      (world.files.walk world.cwd selection.base FilePattern.moduleDirectory) = files)
    (nonempty : files ≠ []) :
    ((generator.listDifferent environment pattern).run world).1 =
        .ok ((generator.checkFiles files).run world).1 ∧
      (generator.listDifferent environment pattern).shown world =
        (generator.checkFiles files).shown world := by
  have inquires := inquires_ofText environment pattern
  have found : selection.files.run world = (files, world) := by
    rw [← listed]
    rfl
  have silent : selection.files.shown world = [] := rfl
  unfold listDifferent
  constructor
  · rw [Action.run_bind, inquires.run_snd, selects]
    simp [Action.run_bind, found, nonempty]
  · rw [Action.shown_bind, inquires.run_snd, inquires.shown_eq_nil, selects]
    simp [Action.shown_bind, found, silent, nonempty]

/-- The summary that is given once a batch of checks is finished. -/
def summarize (files : List Path) (pool : Batch.Pool Bool) : Summary :=
  { fileCount := files.length
    failed := (Summary.ofChecks (Batch.inPathOrder pool.results)).failed }

/-- The check of the files of a pattern by the native compiler. The files are those that the
pattern matches, the failed ones are those that are stale, and an error is shown for each of
these and for no other. So it is if the files are checked one after the other, and so it is
however the tasks of a batch take their steps and are joined: a batch always goes on until
it is finished, and no schedule goes on for longer. -/
theorem listDifferent_schedules
    (native : generator.compiler.kind = .native)
    (selects : ((FilePattern.ofText environment pattern).run world).1 = .ok selection)
    (some : selection.matched
      (world.files.walk world.cwd selection.base FilePattern.moduleDirectory) ≠ []) :
    let found := world.files.walk world.cwd selection.base FilePattern.moduleDirectory
    let files := selection.select found
    let failed := files.filter fun file => generator.IsStale world file
    let messages := files.flatMap (generator.checkMessages world)
    selection.Lists found files ∧
      messages.filter (fun message => message.level == .error) =
        failed.map (fun file => ⟨.error, differentMessage file⟩) ∧
      (∃ after, (generator.listDifferent environment pattern).run world =
          (.ok ⟨files.length, failed⟩, after) ∧
        after.alerts.Perm (messages ++ world.alerts)) ∧
      ∃ count, ∀ limit > 0, ∀ steps pool,
        Batch.Pool.Runs generator.checkFile limit steps (.initial world files) pool →
          steps ≤ count ∧
            (¬ pool.IsFinished → ∃ next, Batch.Pool.Step generator.checkFile limit pool next) ∧
            (pool.IsFinished → summarize files pool = ⟨files.length, failed⟩ ∧
              pool.world.alerts.Perm (messages ++ world.alerts)) := by
  intro found files failed messages
  have lists := selection.lists_select found
  have nonempty : files ≠ [] := by
    obtain ⟨path, isMatched⟩ := List.exists_mem_of_ne_nil _ some
    obtain ⟨other, among, -⟩ := lists.complete path isMatched
    exact List.ne_nil_of_mem among
  have harmless := isHarmless_checkFile native
  refine ⟨lists, filter_flatMap_checkMessages generator world files, ?_,
    (files.map fun file => (generator.checkFile file).asks world + 4).sum,
    fun limit positive steps pool runs => ?_⟩
  · obtain ⟨summary, shown⟩ := listDifferent_eq selects rfl nonempty
    obtain ⟨checked, shownToo⟩ := checkFiles_eq native lists.strict world
    refine ⟨_, Prod.ext (summary.trans (congrArg Except.ok checked)) rfl, ?_⟩
    rw [Action.alerts_run, shown]
    exact shownToo.append_right _
  · refine ⟨runs.bounded harmless, fun unfinished => Batch.Pool.exists_step _ positive unfinished,
      fun finished => ?_⟩
    obtain ⟨-, results, alerts, -⟩ := runs.finished harmless finished
    simp only [(checkFile_eq native world _).1, (checkFile_eq native world _).2]
      at results alerts
    refine ⟨?_, alerts⟩
    rw [summarize, Batch.inPathOrder_eq lists.strict results, ofChecks_map]

/-- A world with a style sheet that is not text and one that exports nothing. -/
def mixedWorld : World :=
  .ofFiles ⟨[(["a.css".toList], .file .binary false), (["b.css".toList], .file (.text []) false)]⟩
    [] fun _ => .failed []

/-- The style sheets of that world. -/
def mixedFiles : List Path :=
  ["a.css", "b.css"]

theorem checkMessages_mixedWorld :
    nativeGenerator.checkMessages mixedWorld "a.css" =
        [⟨.error, differentMessage "a.css"⟩] ∧
      mixedFiles.filter (fun file => nativeGenerator.IsStale mixedWorld file) =
        (["a.css"] : List Path) ∧
      nativeGenerator.checkMessages mixedWorld "b.css" = [] := by
  have unreadable : ((nativeGenerator.generate "a.css").run mixedWorld).1 =
      .error (.unreadable "a.css" .notText) := rfl
  let options := nativeGenerator.compileOptions "b.css"
  let unit : SourceUnit := ⟨"b.css", [], [], []⟩
  have parsed : SourceUnit.ofFile "b.css" [] = .ok unit := by decide +kernel
  obtain ⟨outcome, links, ran⟩ := Native.run_compile mixedWorld options []
  obtain rfl := links.unique (.parsed parsed (.nil unit 0 _))
  have classified : NamedClass.ofCompiled (Native.outputOf options (.ofUnit unit)).css
      (Native.outputOf options (.ofUnit unit)).map nativeGenerator.options.nameFormat =
        .ok [] := by decide +kernel
  have generated :=
    @run_generate mixedWorld nativeGenerator "b.css" [] _ _ rfl rfl ran classified
  have nothing : ((nativeGenerator.generate "b.css").run mixedWorld).1 = .ok none := by
    rw [generated]
    rfl
  have stale : nativeGenerator.IsStale mixedWorld "a.css" := by
    unfold IsStale
    rw [unreadable]
    trivial
  have current : ¬ nativeGenerator.IsStale mixedWorld "b.css" := by
    unfold IsStale
    rw [nothing]
    exact id
  refine ⟨?_, ?_, ?_⟩
  · rw [checkMessages, if_pos stale, unreadable]
    rfl
  · simp only [mixedFiles, List.filter_cons, List.filter_nil, stale, current, decide_true,
      decide_false, if_true]
    rfl
  · rw [checkMessages, if_neg current, nothing]
    rfl

theorem listDifferent_schedules_mixed :
    ∃ selection after,
      nativeGenerator.compiler.kind = .native ∧
        ((FilePattern.ofText ⟨"/", [], none⟩ ".").run mixedWorld).1 = .ok selection ∧
        selection.matched
          (mixedWorld.files.walk mixedWorld.cwd selection.base FilePattern.moduleDirectory) =
            mixedFiles ∧
        (nativeGenerator.listDifferent ⟨"/", [], none⟩ ".").run mixedWorld =
          (.ok ⟨2, ["a.css"]⟩, after) ∧
        ∀ steps pool,
          Batch.Pool.Runs nativeGenerator.checkFile 1 steps (.initial mixedWorld mixedFiles)
            pool →
          pool.IsFinished → summarize mixedFiles pool = ⟨2, ["a.css"]⟩ ∧
            pool.world.alerts = [⟨.error, differentMessage "a.css"⟩] := by
  have chosen : (((FilePattern.ofText ⟨"/", [], none⟩ ".").run mixedWorld).1.toOption.map
      fun selection => selection.matched
        (mixedWorld.files.walk mixedWorld.cwd selection.base FilePattern.moduleDirectory)) =
      some mixedFiles := by decide +kernel
  obtain ⟨selection, selected, isMatched⟩ := Option.map_eq_some_iff.mp chosen
  have selects := Native.ok_of_toOption selected
  have isSelected : selection.select
      (mixedWorld.files.walk mixedWorld.cwd selection.base FilePattern.moduleDirectory) =
        mixedFiles := by
    have sorted : mixedFiles.Pairwise fun path other => path.le other = true := by
      decide +kernel
    have unfolded := congrArg (fun paths => FilePattern.dropRepeats (paths.mergeSort Path.le))
      isMatched
    rw [List.mergeSort_of_pairwise sorted] at unfolded
    exact unfolded
  obtain ⟨first, failed, second⟩ := checkMessages_mixedWorld
  obtain ⟨-, -, ⟨after, ran, -⟩, count, schedules⟩ :=
    @listDifferent_schedules nativeGenerator ⟨"/", [], none⟩ "." selection mixedWorld rfl
      selects (by rw [isMatched]; exact List.cons_ne_nil _ _)
  rw [isSelected, failed] at ran
  refine ⟨selection, after, rfl, selects, isMatched, ran, fun steps pool runs finished => ?_⟩
  rw [isSelected] at schedules
  obtain ⟨-, -, ends⟩ := schedules 1 Nat.one_pos steps pool runs
  obtain ⟨summary, alerts⟩ := ends finished
  rw [failed] at summary
  refine ⟨summary, List.perm_singleton.mp (alerts.trans ?_)⟩
  rw [mixedFiles, List.flatMap_cons, List.flatMap_cons, first, second]
  exact .refl _

end Generator
end StyleTypings
