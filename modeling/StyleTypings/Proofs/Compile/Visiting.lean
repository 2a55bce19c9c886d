import Mathlib.Logic.Relation
import StyleTypings.Proofs.Compile.Cleaning
import StyleTypings.Proofs.Compile.Copying
import StyleTypings.Proofs.Compile.Once
import StyleTypings.Proofs.Stylesheet.Reporting

/-!
# Visiting the files of a compilation

A compilation visits files depth first from its entry. Each file is checked before its
imports are followed in the order of the text, and the file of an import is entered unless
it was visited before. The first problem on the way ends the visit: a fault of the file
just entered, an import that means no file, or one whose file cannot be read. A compile
error is that problem at its place in the file where it was met, as the file was written.

Here a visit is described one step at a time, and by the texts that were read rather than
by the units made of them. At every moment it is over, or there is one next step, or there
is one problem.
-/

namespace StyleTypings

/-- A file under the path by which it was reached. -/
structure SourceFile where
  path : Path
  text : Text

namespace SourceFile

/-- A file is parsed without its line comments if it is one of LESS. -/
def parsed (file : SourceFile) : Parser.Parsed :=
  Parser.parse (SourceUnit.cleanText file.path file.text)

/-- The local imports outside all blocks, in the order of the text. -/
def imports (file : SourceFile) : List ImportRule :=
  file.parsed.sheet.nodes.filterMap ImportRule.ofNode?

/-- The file that an import means. -/
def target?
    (world : World)
    (options : ImportOptions)
    (file : SourceFile)
    (rule : ImportRule) : Option Path :=
  (ImportSpecifier.candidates options file.path rule.specifier).find?
    (LinkedSheet.isRegular world)

/-- A unit is made of a file. -/
def Becomes (file : SourceFile) (unit : SourceUnit) : Prop :=
  SourceUnit.ofFile file.path file.text = .ok unit

end SourceFile

/-- The files of a compilation at some moment of the visit. -/
structure Visit where
  /-- The files that were entered and not left, the last one first, each with the imports
  that have not been followed. -/
  inside : List (SourceFile × List ImportRule)
  /-- The files in the order in which they were entered. -/
  visited : List SourceFile

namespace Visit

/-- The visit begins at the entry. -/
def start (entry : SourceFile) : Visit :=
  ⟨[(entry, entry.imports)], [entry]⟩

/-- A file was visited under a path of the same components. -/
def Knows (visit : Visit) (path : Path) : Prop :=
  ∃ file ∈ visit.visited, file.path.alike path = true

/-- What ends a visit. -/
structure Problem where
  kind : CompileProblem
  /-- The file in which it was met. -/
  file : SourceFile
  /-- Where it begins in the file. -/
  offset : Nat

/-- An error tells a problem with its line and column in the file as it was written. -/
def Problem.IsReportedBy (problem : Problem) (error : CompileError) : Prop :=
  error.problem = problem.kind ∧
    error.filename = some problem.file.path ∧
      ∃ place, problem.file.text.IsPlace problem.offset place ∧
        error.line = some (place.line + 1) ∧ error.column = some place.column

section Steps

variable
  (world : World)
  (options : ImportOptions)

/-- What comes next in a visit, if the file it is in has no fault. -/
inductive Step : Visit → Visit → Prop
  /-- A file is left when all its imports were followed. -/
  | leave
      {file : SourceFile}
      (outer : List (SourceFile × List ImportRule))
      (visited : List SourceFile)
      (faultless : file.parsed.faults = []) :
      Step ⟨(file, []) :: outer, visited⟩ ⟨outer, visited⟩
  /-- A file that was visited is not entered again. -/
  | again
      {file : SourceFile}
      {rule : ImportRule}
      {rest : List ImportRule}
      {outer : List (SourceFile × List ImportRule)}
      {visited : List SourceFile}
      {target : Path}
      (faultless : file.parsed.faults = [])
      (found : file.target? world options rule = some target)
      (old : Knows ⟨(file, rule :: rest) :: outer, visited⟩ target) :
      Step ⟨(file, rule :: rest) :: outer, visited⟩ ⟨(file, rest) :: outer, visited⟩
  /-- The file of an import is entered. -/
  | enter
      {file : SourceFile}
      {rule : ImportRule}
      {rest : List ImportRule}
      {outer : List (SourceFile × List ImportRule)}
      {visited : List SourceFile}
      {imported : SourceFile}
      (faultless : file.parsed.faults = [])
      (found : file.target? world options rule = some imported.path)
      (new : ¬ Knows ⟨(file, rule :: rest) :: outer, visited⟩ imported.path)
      (content : world.files.read world.cwd imported.path = .ok imported.text) :
      Step ⟨(file, rule :: rest) :: outer, visited⟩
        ⟨(imported, imported.imports) :: (file, rest) :: outer, visited ++ [imported]⟩

/-- The problem that a visit meets in the file it is in. -/
inductive Meets : Visit → Problem → Prop
  /-- The file has faults. -/
  | fault
      {file : SourceFile}
      {first : Fault}
      {others : List Fault}
      (rules : List ImportRule)
      (outer : List (SourceFile × List ImportRule))
      (visited : List SourceFile)
      (faulty : file.parsed.faults = first :: others) :
      Meets ⟨(file, rules) :: outer, visited⟩ ⟨.fault first.kind, file, first.span.start⟩
  /-- An import means no file. -/
  | missing
      {file : SourceFile}
      {rule : ImportRule}
      (rest : List ImportRule)
      (outer : List (SourceFile × List ImportRule))
      (visited : List SourceFile)
      (faultless : file.parsed.faults = [])
      (absent : file.target? world options rule = none) :
      Meets ⟨(file, rule :: rest) :: outer, visited⟩
        ⟨.importNotFound rule.specifier, file, rule.span.start⟩
  /-- The file of an import was not visited, and it cannot be read. -/
  | unreadable
      {file : SourceFile}
      {rule : ImportRule}
      {rest : List ImportRule}
      {outer : List (SourceFile × List ImportRule)}
      {visited : List SourceFile}
      {target : Path}
      {problem : FileError}
      (faultless : file.parsed.faults = [])
      (found : file.target? world options rule = some target)
      (new : ¬ Knows ⟨(file, rule :: rest) :: outer, visited⟩ target)
      (content : world.files.read world.cwd target = .error problem) :
      Meets ⟨(file, rule :: rest) :: outer, visited⟩
        ⟨.importUnreadable target problem, file, rule.span.start⟩

/-- Any number of steps. -/
abbrev Steps : Visit → Visit → Prop :=
  Relation.ReflTransGen (Step world options)

/-- Steps from a visit lead to a problem, which an error tells. -/
def Stops (before : Visit) (error : CompileError) : Prop :=
  ∃ visit problem, Steps world options before visit ∧
    visit.Meets world options problem ∧ problem.IsReportedBy error

/-! ## One thing happens next -/

theorem step_unique : Relator.RightUnique (Step world options) := by
  intro visit left right one other
  cases one with
  | leave => cases other; rfl
  | again faultless found old =>
      cases other with
      | again => rfl
      | enter _ foundToo new =>
          obtain rfl := Option.some.inj (found.symm.trans foundToo)
          exact absurd old new
  | @enter _ _ _ _ _ imported faultless found new content =>
      cases other with
      | again _ foundToo old =>
          obtain rfl := Option.some.inj (found.symm.trans foundToo)
          exact absurd old new
      | @enter _ _ _ _ _ other _ foundToo _ contentToo =>
          obtain ⟨path, text⟩ := imported
          obtain ⟨otherPath, otherText⟩ := other
          obtain rfl := Option.some.inj (found.symm.trans foundToo)
          obtain rfl := Except.ok.inj (content.symm.trans contentToo)
          rfl

variable {world options}

theorem Stops.after
    {before after : Visit}
    {error : CompileError}
    (steps : Steps world options before after)
    (stops : after.Stops world options error) :
    before.Stops world options error := by
  obtain ⟨visit, problem, later, meets, reported⟩ := stops
  exact ⟨visit, problem, steps.trans later, meets, reported⟩

theorem Meets.not_step
    {visit next : Visit}
    {problem : Problem}
    (meets : visit.Meets world options problem) :
    ¬ Step world options visit next := by
  intro step
  cases meets <;> cases step <;> simp_all

theorem Meets.unique
    {visit : Visit}
    {left right : Problem}
    (one : visit.Meets world options left)
    (other : visit.Meets world options right) :
    left = right := by
  cases one <;> cases other <;> simp_all

/-- Steps that go as far as they can go on from where any others end. -/
theorem Steps.through
    {first last other : Visit}
    (steps : Steps world options first last)
    (stuck : ∀ next, ¬ Step world options last next)
    (others : Steps world options first other) :
    Steps world options other last := by
  rcases steps.total_of_right_unique (step_unique world options) others with beyond | before
  · rcases beyond.cases_head with rfl | ⟨next, step, -⟩
    · exact .refl
    · exact absurd step (stuck next)
  · exact before

end Steps

end Visit

/-! ## Places of problems -/

theorem ImportRule.AllFit.solid
    {text : Text}
    {low : Nat}
    {rules : List ImportRule}
    (fit : AllFit text low rules) :
    ∀ rule ∈ rules, text.SolidAt rule.span.start := by
  induction rules generalizing low with
  | nil => exact nofun
  | cons rule rest inductionHypothesis =>
      exact List.forall_mem_cons.mpr ⟨fit.1.solid, inductionHypothesis fit.2⟩

namespace SourceUnit

/-- The place of a character that is no space, in the text as it was written. -/
theorem isPlace_place
    {path : Path}
    {text : Text}
    {offset : Nat}
    (solid : (cleanText path text).SolidAt offset) :
    text.IsPlace offset (place (cleanText path text) offset) := by
  obtain ⟨found, isPlace⟩ := solid.boundary.exists_place
  unfold place
  rw [LineIndex.lineColumnUtf16?_of_isPlace isPlace, Option.getD_some]
  exact isPlace_of_cleanText solid isPlace

end SourceUnit

namespace SourceFile

theorem Becomes.eq
    {file : SourceFile}
    {unit : SourceUnit}
    (becomes : file.Becomes unit) :
    file.parsed.faults = [] ∧ unit.path = file.path ∧ unit.imports = file.imports := by
  obtain ⟨faultless, rfl⟩ := SourceUnit.ofFile_eq becomes
  exact ⟨faultless, rfl, rfl⟩

/-- An import means the same file whether the text or its unit is looked at. -/
theorem Becomes.target?_eq
    {file : SourceFile}
    {unit : SourceUnit}
    (becomes : file.Becomes unit)
    (world : World)
    (options : ImportOptions)
    (rule : ImportRule) :
    LinkedSheet.target? world options unit rule = file.target? world options rule := by
  unfold LinkedSheet.target? target?
  rw [becomes.eq.2.1]

/-- A file that becomes no unit has a fault, and the first of them is told. -/
theorem exists_fault
    {file : SourceFile}
    {error : CompileError}
    (parsed : SourceUnit.ofFile file.path file.text = .error error) :
    ∃ first others, file.parsed.faults = first :: others ∧
      Visit.Problem.IsReportedBy ⟨.fault first.kind, file, first.span.start⟩ error := by
  unfold SourceUnit.ofFile at parsed
  simp only at parsed
  split at parsed
  · next first others faulty =>
      obtain rfl := Except.error.inj parsed
      have solid := (Parser.listsFaults (SourceUnit.cleanText file.path file.text)).solid first
        (faulty ▸ List.mem_cons_self)
      exact ⟨first, others, faulty, rfl, rfl, _, SourceUnit.isPlace_place solid, rfl, rfl⟩
  · exact absurd parsed nofun

/-- A problem with an import is told at its at-rule. -/
theorem isReportedBy_importError
    {file : SourceFile}
    {unit : SourceUnit}
    {rule : ImportRule}
    (becomes : file.Becomes unit)
    (among : rule ∈ unit.imports)
    (kind : CompileProblem) :
    Visit.Problem.IsReportedBy ⟨kind, file, rule.span.start⟩ (unit.importError rule kind) := by
  have solid := (SourceUnit.sound_of_ofFile becomes).imports.solid rule among
  rw [SourceUnit.text_of_ofFile becomes] at solid
  refine ⟨rfl, congrArg some becomes.eq.2.1, _, SourceUnit.isPlace_place solid, ?_, ?_⟩
  all_goals rw [← SourceUnit.text_of_ofFile becomes]; rfl

end SourceFile

/-! ## What linking visits -/

namespace LinkedSheet

open Visit

theorem hasSeen_iff_knows (visit : Visit) (path : Path) :
    hasSeen (visit.visited.map (·.path)).reverse path = true ↔ visit.Knows path := by
  unfold hasSeen Knows
  simp

theorem not_knows_of_new
    {visit : Visit}
    {path : Path}
    (new : hasSeen (visit.visited.map (·.path)).reverse path = false) :
    ¬ visit.Knows path := by
  rw [← hasSeen_iff_knows, new]
  exact Bool.false_ne_true

/-- What a visit comes to once the imports of a file are followed. -/
inductive ComesTo
    (world : World)
    (options : ImportOptions)
    (file : SourceFile)
    (outer : List (SourceFile × List ImportRule))
    (visited : List SourceFile)
    (before : Visit) : Except CompileError Linked → Prop
  /-- All of them are followed, and what was entered became the units linked. -/
  | passes
      {linked : Linked}
      {entered : List SourceFile}
      (steps : Steps world options before ⟨(file, []) :: outer, visited ++ entered⟩)
      (units : List.Forall₂ SourceFile.Becomes entered (unitsOfPieces linked.pieces)) :
      ComesTo world options file outer visited before (.ok linked)
  /-- A problem is met. -/
  | stops
      {error : CompileError}
      (stops : before.Stops world options error) :
      ComesTo world options file outer visited before (.error error)

/-- What steps lead to, and one more piece in front. -/
theorem ComesTo.withPiece
    {world : World}
    {options : ImportOptions}
    {file : SourceFile}
    {outer : List (SourceFile × List ImportRule)}
    {visited entered grown : List SourceFile}
    {before after : Visit}
    {outcome : Except CompileError Linked}
    (comesTo : ComesTo world options file outer grown after outcome)
    (steps : Steps world options before after)
    (grows : grown = visited ++ entered)
    {piece : Span × Option LinkedSheet}
    (units : List.Forall₂ SourceFile.Becomes entered (unitsOfPieces [piece])) :
    ComesTo world options file outer visited before (outcome.map (Linked.withPiece piece)) := by
  subst grows
  cases comesTo with
  | @passes linked others later otherUnits =>
      rw [List.append_assoc] at later
      refine .passes (steps.trans later) ?_
      have split : unitsOfPieces (linked.withPiece piece).pieces =
          unitsOfPieces [piece] ++ unitsOfPieces linked.pieces := by
        obtain ⟨range, inner⟩ := piece
        cases inner with
        | none => rfl
        | some sheet => simp [Linked.withPiece, unitsOfPieces]
      rw [split]
      exact List.rel_append units otherUnits
  | stops stops => exact .stops (.after steps stops)

/-- Files that become units are visited under the paths of the units. -/
theorem map_path_of_becomes
    {files : List SourceFile}
    {units : List SourceUnit}
    (become : List.Forall₂ SourceFile.Becomes files units) :
    units.map (·.path) = files.map (·.path) := by
  induction become with
  | nil => rfl
  | cons first _ inductionHypothesis =>
      rw [List.map_cons, List.map_cons, inductionHypothesis, first.eq.2.1]

/-- Files that become units have no faults. -/
theorem faultless_of_becomes
    {files : List SourceFile}
    {units : List SourceUnit}
    (become : List.Forall₂ SourceFile.Becomes files units) :
    ∀ file ∈ files, file.parsed.faults = [] := by
  induction become with
  | nil => exact nofun
  | cons first _ inductionHypothesis =>
      exact List.forall_mem_cons.mpr ⟨first.eq.1, inductionHypothesis⟩

/-- The file of an import that was not seen is entered. -/
theorem step_of_new
    {world : World}
    {options : ImportOptions}
    {unit : SourceUnit}
    {file : SourceFile}
    {rule : ImportRule}
    {visited : List SourceFile}
    {target : Path}
    {source : Text}
    (rest : List ImportRule)
    (outer : List (SourceFile × List ImportRule))
    (becomes : file.Becomes unit)
    (found : target? world options unit rule = some target)
    (new : hasSeen (visited.map (·.path)).reverse target = false)
    (content : world.files.read world.cwd target = .ok source) :
    let imported : SourceFile := ⟨target, source⟩
    Step world options ⟨(file, rule :: rest) :: outer, visited⟩
      ⟨(imported, imported.imports) :: (file, rest) :: outer, visited ++ [imported]⟩ := by
  rw [becomes.target?_eq] at found
  exact @Step.enter world options file rule rest outer visited ⟨target, source⟩ becomes.eq.1
    found (not_knows_of_new new) content

/-- Linking the imports left of a file visits what they lead to. -/
theorem Links.comesTo
    {world : World}
    {options : ImportOptions}
    {unit : SourceUnit}
    {rules : List ImportRule}
    {cursor : Nat}
    {seen : List Path}
    {outcome : Except CompileError Linked}
    (links : Links world options unit rules cursor seen outcome)
    {file : SourceFile}
    {visited : List SourceFile}
    (outer : List (SourceFile × List ImportRule))
    (becomes : file.Becomes unit)
    (among : ∀ rule ∈ rules, rule ∈ unit.imports)
    (sees : seen = (visited.map (·.path)).reverse) :
    ComesTo world options file outer visited ⟨(file, rules) :: outer, visited⟩ outcome := by
  induction links generalizing file visited outer with
  | nil unit cursor seen =>
      have nothing : visited ++ [] = visited := List.append_nil visited
      exact .passes (nothing.symm ▸ .refl) .nil
  | @missing unit rule rest cursor seen absent =>
      rw [becomes.target?_eq] at absent
      exact .stops ⟨_, _, .refl, .missing rest outer visited becomes.eq.1 absent,
        file.isReportedBy_importError becomes (among rule List.mem_cons_self) _⟩
  | @again unit rule rest cursor seen target outcome found old others inductionHypothesis =>
      subst sees
      rw [becomes.target?_eq] at found
      have passes : Step world options ⟨(file, rule :: rest) :: outer, visited⟩
          ⟨(file, rest) :: outer, visited⟩ :=
        .again becomes.eq.1 found ((hasSeen_iff_knows _ target).mp old)
      have nothing : List.Forall₂ SourceFile.Becomes []
          (unitsOfPieces [(⟨cursor, rule.span.start⟩, none)]) := .nil
      have later := inductionHypothesis outer becomes (List.forall_mem_cons.mp among).2 rfl
      exact later.withPiece (.single passes) (List.append_nil visited).symm nothing
  | @unreadable unit rule rest cursor seen target problem found new content =>
      subst sees
      rw [becomes.target?_eq] at found
      exact .stops ⟨_, _, .refl,
        .unreadable becomes.eq.1 found (not_knows_of_new new) content,
        file.isReportedBy_importError becomes (among rule List.mem_cons_self) _⟩
  | @faulty unit rule rest cursor seen target source problem found new content parsed =>
      subst sees
      have enters := step_of_new rest outer becomes found new content
      obtain ⟨first, others, faulty, reported⟩ :=
        @SourceFile.exists_fault ⟨target, source⟩ problem parsed
      exact .stops ⟨_, _, .single enters, .fault _ _ _ faulty, reported⟩
  | @broken unit imported rule rest cursor seen target source problem found new content parsed
      within inductionHypothesis =>
      subst sees
      have enters := step_of_new rest outer becomes found new content
      have inner : SourceFile.Becomes ⟨target, source⟩ imported := parsed
      have comesTo : ComesTo world options ⟨target, source⟩ ((file, rest) :: outer)
          (visited ++ [⟨target, source⟩]) _ _ :=
        inductionHypothesis _ inner (fun _ present => present) (by simp)
      rw [inner.eq.2.2] at comesTo
      cases comesTo with
      | stops stops => exact .stops (.after (.single enters) stops)
  | @fresh unit imported rule rest cursor seen target source inner outcome found new content
      parsed within others withinHypothesis othersHypothesis =>
      subst sees
      have enters := step_of_new rest outer becomes found new content
      have isUnit : SourceFile.Becomes ⟨target, source⟩ imported := parsed
      have comesTo : ComesTo world options ⟨target, source⟩ ((file, rest) :: outer)
          (visited ++ [⟨target, source⟩]) _ _ :=
        withinHypothesis _ isUnit (fun _ present => present) (by simp)
      rw [isUnit.eq.2.2] at comesTo
      cases comesTo with
      | @passes _ entered steps units =>
          -- All that was entered below is behind the file itself in the order of the visit.
          let after : List SourceFile := visited ++ [⟨target, source⟩] ++ entered
          have leaves : Step world options _ _ :=
            .leave ((file, rest) :: outer) after isUnit.eq.1
          have sees : inner.seenAfter = (after.map (·.path)).reverse := by
            rw [within.seenAfter_eq, map_path_of_becomes units]
            simp [after]
          have pieces : List.Forall₂ SourceFile.Becomes (⟨target, source⟩ :: entered)
              (unitsOfPieces [(⟨cursor, rule.span.start⟩, some (inner.toSheet imported))]) := by
            rw [unitsOfPieces, unitsOfPieces, List.append_nil]
            exact .cons isUnit units
          have later := othersHypothesis outer becomes (List.forall_mem_cons.mp among).2 sees
          exact later.withPiece (.trans (.single enters) (steps.tail leaves)) (by simp [after])
            pieces

end LinkedSheet

/-! ## What a visit leaves behind -/

/-- A regular file can be read under all paths of the same components. -/
theorem read_of_alike
    {world : World}
    {path other : Path}
    {text : Text}
    (regular : LinkedSheet.isRegular world path = true)
    (alike : other.alike path = true)
    (content : world.files.read world.cwd other = .ok text) :
    world.files.read world.cwd path = .ok text := by
  obtain ⟨-, executable, stands⟩ := FileSystem.read_eq content
  rw [Place.ofPath_eq_of_alike alike] at stands
  unfold LinkedSheet.isRegular FileSystem.kind? at regular
  unfold FileSystem.read
  cases named : world.files.entryAt world.cwd path with
  | error problem =>
      rw [named] at regular
      exact absurd regular nofun
  | ok entry =>
      obtain rfl := Option.some.inj ((FileSystem.entryAt_eq named).2.symm.trans stands)
      rfl

namespace Visit

/-- What is true at every moment of a visit. -/
structure Sound
    (world : World)
    (options : ImportOptions)
    (entry : SourceFile)
    (visit : Visit) : Prop where
  /-- The files visited are the entry and files that were read. -/
  stands : ∀ file ∈ visit.visited,
    file = entry ∨ world.files.read world.cwd file.path = .ok file.text
  /-- An import of a file visited has not been followed, or it means a file visited. -/
  followed : ∀ file ∈ visit.visited, ∀ rule ∈ file.imports,
    (∃ rules, (file, rules) ∈ visit.inside ∧ rule ∈ rules) ∨
      ∃ target, file.target? world options rule = some target ∧ visit.Knows target

theorem sound_start (world : World) (options : ImportOptions) (entry : SourceFile) :
    (start entry).Sound world options entry where
  stands file present := .inl (List.mem_singleton.mp present)
  followed file present rule among := by
    obtain rfl := List.mem_singleton.mp present
    exact .inl ⟨_, List.mem_cons_self, among⟩

/-- An import not followed is the next one of the file last entered, or it is left when
that one is followed. -/
theorem isNext_or_left
    {last file : SourceFile}
    {next rule : ImportRule}
    {rest : List ImportRule}
    {outer : List (SourceFile × List ImportRule)}
    (isLeft : ∃ rules, (file, rules) ∈ (last, next :: rest) :: outer ∧ rule ∈ rules) :
    rule = next ∧ file = last ∨
      ∃ rules, (file, rules) ∈ (last, rest) :: outer ∧ rule ∈ rules := by
  obtain ⟨rules, isInside, among⟩ := isLeft
  rcases List.mem_cons.mp isInside with isLast | isOuter
  · obtain ⟨rfl, rfl⟩ := Prod.mk.inj isLast
    rcases List.mem_cons.mp among with isNext | later
    · exact .inl ⟨isNext, rfl⟩
    · exact .inr ⟨rest, List.mem_cons_self, later⟩
  · exact .inr ⟨rules, List.mem_cons_of_mem _ isOuter, among⟩

/-- Each step keeps a visit sound. -/
theorem Sound.step
    {world : World}
    {options : ImportOptions}
    {entry : SourceFile}
    {visit next : Visit}
    (sound : visit.Sound world options entry)
    (step : Step world options visit next) :
    next.Sound world options entry := by
  obtain ⟨stands, followed⟩ := sound
  cases step with
  | leave outer visited faultless =>
      refine ⟨stands, fun file present rule among => ?_⟩
      refine (followed file present rule among).imp_left ?_
      rintro ⟨rules, isInside, isLeft⟩
      rcases List.mem_cons.mp isInside with isLast | isOuter
      · obtain ⟨rfl, rfl⟩ := Prod.mk.inj isLast
        exact absurd isLeft List.not_mem_nil
      · exact ⟨rules, isOuter, isLeft⟩
  | @again last first rest outer visited target faultless found old =>
      refine ⟨stands, fun file present rule among => ?_⟩
      rcases followed file present rule among with isLeft | isFollowed
      · rcases isNext_or_left isLeft with ⟨rfl, rfl⟩ | later
        · exact .inr ⟨target, found, old⟩
        · exact .inl later
      · exact .inr isFollowed
  | @enter last first rest outer visited imported faultless found new content =>
      have isLast : imported ∈ visited ++ [imported] :=
        List.mem_append_right _ (List.mem_singleton_self imported)
      refine ⟨fun file present => ?_, fun file present rule among => ?_⟩
      all_goals rcases List.mem_append.mp present with earlier | isNew
      · exact stands file earlier
      · obtain rfl := List.mem_singleton.mp isNew
        exact .inr content
      · rcases followed file earlier rule among with isLeft | ⟨target, meant, known⟩
        · rcases isNext_or_left isLeft with ⟨rfl, rfl⟩ | ⟨rules, isInside, later⟩
          · exact .inr ⟨imported.path, found, imported, isLast, beq_self_eq_true _⟩
          · exact .inl ⟨rules, List.mem_cons_of_mem _ isInside, later⟩
        · obtain ⟨old, wasVisited, alike⟩ := known
          exact .inr ⟨target, meant, old, List.mem_append_left _ wasVisited, alike⟩
      · obtain rfl := List.mem_singleton.mp isNew
        exact .inl ⟨_, List.mem_cons_self, among⟩

theorem Sound.steps
    {world : World}
    {options : ImportOptions}
    {entry : SourceFile}
    {visit last : Visit}
    (sound : visit.Sound world options entry)
    (steps : Steps world options visit last) :
    last.Sound world options entry := by
  induction steps with
  | refl => exact sound
  | tail _ step inductionHypothesis => exact inductionHypothesis.step step

/-- A visit that meets no problem. -/
structure Completes
    (world : World)
    (options : ImportOptions)
    (entry : SourceFile)
    (visited : List SourceFile) : Prop where
  /-- It comes to its end. -/
  ends : Steps world options (start entry) ⟨[], visited⟩
  /-- There is no problem at any moment. -/
  free : ∀ visit problem, Steps world options (start entry) visit →
    ¬ visit.Meets world options problem
  /-- No file visited has a fault. -/
  faultless : ∀ file ∈ visited, file.parsed.faults = []
  /-- The files visited are the entry and files that were read. -/
  stands : ∀ file ∈ visited,
    file = entry ∨ world.files.read world.cwd file.path = .ok file.text
  /-- Every import of a file visited means a file visited. -/
  resolved : ∀ file ∈ visited, ∀ rule ∈ file.imports, ∃ target,
    file.target? world options rule = some target ∧
      ∃ other ∈ visited, other.path.alike target = true
  /-- If the text of the entry is what its file holds, every import of a file visited means
  a file that can be read as text. -/
  readable : world.files.read world.cwd entry.path = .ok entry.text →
    ∀ file ∈ visited, ∀ rule ∈ file.imports, ∃ target text,
      file.target? world options rule = some target ∧
        world.files.read world.cwd target = .ok text

/-- A visit that ends with a problem, which an error tells. -/
structure Fails
    (world : World)
    (options : ImportOptions)
    (entry : SourceFile)
    (error : CompileError)
    (visit : Visit)
    (problem : Problem) : Prop where
  /-- It comes to the problem. -/
  reaches : Steps world options (start entry) visit
  meets : visit.Meets world options problem
  /-- There is no other problem at any moment. -/
  first : ∀ other trouble, Steps world options (start entry) other →
    other.Meets world options trouble → trouble = problem
  /-- The error tells it at its place in the file as it was written. -/
  reported : problem.IsReportedBy error

section Ended

variable
  {world : World}
  {options : ImportOptions}
  {entry file : SourceFile}
  {visited : List SourceFile}
  {rule : ImportRule}

/-- At the end of a visit every import means a file visited. -/
theorem Sound.resolved
    (sound : Sound world options entry ⟨[], visited⟩)
    (present : file ∈ visited)
    (among : rule ∈ file.imports) :
    ∃ target, file.target? world options rule = some target ∧
      ∃ other ∈ visited, other.path.alike target = true := by
  rcases sound.followed file present rule among with ⟨rules, isInside, -⟩ | followed
  · exact absurd isInside List.not_mem_nil
  · exact followed

/-- If all files visited stand in the world, every import means one that can be read. -/
theorem Sound.readable
    (sound : Sound world options entry ⟨[], visited⟩)
    (content : world.files.read world.cwd entry.path = .ok entry.text)
    (present : file ∈ visited)
    (among : rule ∈ file.imports) :
    ∃ target text, file.target? world options rule = some target ∧
      world.files.read world.cwd target = .ok text := by
  obtain ⟨target, meant, other, wasVisited, alike⟩ := sound.resolved present among
  have regular : LinkedSheet.isRegular world target = true := List.find?_some meant
  have standing : world.files.read world.cwd other.path = .ok other.text := by
    rcases sound.stands other wasVisited with rfl | standing
    · exact content
    · exact standing
  exact ⟨target, other.text, meant, read_of_alike regular alike standing⟩

end Ended

/-- A visit that comes to its end completes. -/
theorem completes_of_steps
    {world : World}
    {options : ImportOptions}
    {entry : SourceFile}
    {visited : List SourceFile}
    {units : List SourceUnit}
    (steps : Steps world options (start entry) ⟨[], visited⟩)
    (become : List.Forall₂ SourceFile.Becomes visited units) :
    Completes world options entry visited := by
  have sound := (sound_start world options entry).steps steps
  refine
    { ends := steps
      free := fun visit problem others meets => ?_
      faultless := LinkedSheet.faultless_of_becomes become
      stands := sound.stands
      resolved := fun file present rule among => sound.resolved present among
      readable := fun content file present rule among => sound.readable content present among }
  have onwards := steps.through (fun _ step => nomatch step) others
  rcases onwards.cases_head with rfl | ⟨next, step, -⟩
  · exact nomatch meets
  · exact meets.not_step step

/-- A visit that comes to a problem fails with it. -/
theorem Stops.exists_fails
    {world : World}
    {options : ImportOptions}
    {entry : SourceFile}
    {error : CompileError}
    (stops : (start entry).Stops world options error) :
    ∃ visit problem, Fails world options entry error visit problem := by
  obtain ⟨visit, problem, steps, meets, reported⟩ := stops
  refine ⟨visit, problem, steps, meets, fun other trouble others troubled => ?_, reported⟩
  have onwards := steps.through (fun _ => meets.not_step) others
  rcases onwards.cases_head with rfl | ⟨next, step, -⟩
  · exact troubled.unique meets
  · exact absurd step troubled.not_step

end Visit

namespace Native

open LinkedSheet Visit

/-- A compilation visits the files that its entry leads to. If it succeeds, the visit
completes and the output is that of the units made of the files visited; all their imports
can be read where the text compiled is what the entry's file holds. If it fails, the error
tells the first problem of the visit. -/
theorem compile_visits
    (world : World)
    (options : CompileOptions)
    (source : Text) :
    ((compile options source).run world).2 = world ∧
      (∀ output, ((compile options source).run world).1 = .ok output →
        ∃ visited sheet,
          Completes world options.imports ⟨options.filename, source⟩ visited ∧
            List.Forall₂ SourceFile.Becomes visited sheet.units ∧
            output = outputOf options sheet) ∧
      ∀ error, ((compile options source).run world).1 = .error error →
        ∃ visit problem,
          Fails world options.imports ⟨options.filename, source⟩ error visit problem := by
  let entry : SourceFile := ⟨options.filename, source⟩
  obtain ⟨outcome, links, ran⟩ := run_compile world options source
  rw [ran]
  refine ⟨rfl, ?_⟩
  cases links with
  | @faulty problem parsed =>
      obtain ⟨first, others, faulty, reported⟩ := @SourceFile.exists_fault entry problem parsed
      refine ⟨nofun, ?_⟩
      rintro error ⟨⟩
      exact Stops.exists_fails ⟨_, _, .refl, .fault _ _ _ faulty, reported⟩
  | @parsed unit outcome parsed links =>
      have becomes : entry.Becomes unit := parsed
      have comesTo : ComesTo world options.imports entry [] [entry] _ outcome :=
        links.comesTo [] becomes (fun _ present => present) rfl
      rw [becomes.eq.2.2] at comesTo
      cases comesTo with
      | @passes linked entered steps units =>
          refine ⟨?_, nofun⟩
          rintro output ⟨⟩
          have ended := steps.tail (.leave [] _ becomes.eq.1)
          have become : List.Forall₂ SourceFile.Becomes ([entry] ++ entered)
              (linked.toSheet unit).units := .cons becomes units
          exact ⟨_, _, completes_of_steps ended become, become, rfl⟩
      | stops stops =>
          refine ⟨nofun, ?_⟩
          rintro error ⟨⟩
          exact stops.exists_fails

/-- An import that means no file, below a line comment and behind a character of two
UTF-16 units. -/
def missing : Text :=
  "// é\n/*🎨*/ @import 'b.css';"

/-- The unit of that style sheet, without the line comment. -/
def missingUnit : SourceUnit :=
  { path := "main.less"
    text := "     \n/*🎨*/ @import 'b.css';"
    starts := [6, 15]
    imports := [⟨"b.css", ⟨15, 31⟩⟩] }

/-- The compilation of that style sheet. -/
def missingOptions : CompileOptions :=
  { respelledOptions with filename := "main.less" }

theorem compile_missing :
    ((compile missingOptions missing).run respelledWorld).1 =
      .error ⟨.importNotFound "b.css", some "main.less", some 2, some 7⟩ := by
  have parsed : SourceUnit.ofFile "main.less" missing = .ok missingUnit :=
    ok_of_toOption (by decide +kernel)
  have absent : target? respelledWorld missingOptions.imports missingUnit
      ⟨"b.css", ⟨15, 31⟩⟩ = none := by decide +kernel
  have located : missingUnit.importError ⟨"b.css", ⟨15, 31⟩⟩ (.importNotFound "b.css") =
      ⟨.importNotFound "b.css", some "main.less", some 2, some 7⟩ := by decide +kernel
  have fails : LinksFile respelledWorld missingOptions.imports "main.less" missing
      (.error (missingUnit.importError ⟨"b.css", ⟨15, 31⟩⟩ (.importNotFound "b.css"))) :=
    .parsed parsed (.missing [] 0 ["main.less"] absent)
  obtain ⟨outcome, links, ran⟩ := run_compile respelledWorld missingOptions missing
  obtain rfl := links.unique fails
  rw [ran, located]
  rfl

theorem compile_visits_respelled :
    (∃ output, ((compile respelledOptions respelled).run respelledWorld).1 = .ok output) ∧
      (∃ visited, Completes respelledWorld respelledOptions.imports
          ⟨respelledOptions.filename, respelled⟩ visited ∧
        ∀ file ∈ visited, ∀ rule ∈ file.imports, ∃ target text,
          file.target? respelledWorld respelledOptions.imports rule = some target ∧
            respelledWorld.files.read respelledWorld.cwd target = .ok text) ∧
      ((compile missingOptions missing).run respelledWorld).1 =
        .error ⟨.importNotFound "b.css", some "main.less", some 2, some 7⟩ ∧
      ∃ visit problem, Fails respelledWorld missingOptions.imports
        ⟨missingOptions.filename, missing⟩
        ⟨.importNotFound "b.css", some "main.less", some 2, some 7⟩ visit problem := by
  obtain ⟨outcome, links, ran⟩ := run_compile respelledWorld respelledOptions respelled
  obtain rfl := links.unique links_respelled
  have succeeds := congrArg Prod.fst ran
  obtain ⟨-, completes, -⟩ := compile_visits respelledWorld respelledOptions respelled
  obtain ⟨visited, sheet, visit, -, -⟩ := completes _ succeeds
  obtain ⟨-, -, fails⟩ := compile_visits respelledWorld missingOptions missing
  exact ⟨⟨_, succeeds⟩, ⟨visited, visit, visit.readable rfl⟩, compile_missing,
    fails _ compile_missing⟩

end Native
end StyleTypings
