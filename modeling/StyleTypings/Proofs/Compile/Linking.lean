import StyleTypings.Compile.Linked
import StyleTypings.Proofs.Files.Resolving

/-!
# What linking comes to

`Links` says what the imports of a unit come to, as rules over finite trees: an
@import of a seen file leaves nothing, one of a new file leaves the sheet of that
file, and the first one that cannot be followed ends everything. Every run of
`linkImports` ends, leaves its world alone, and has the outcome that these rules
give, of which there is only one.

The rules ask nothing about the length of a path. A path that names a file is
short enough, so the test that linking makes for the sake of its termination is
never the reason for an outcome.
-/

namespace StyleTypings
namespace LinkedSheet

/-- Whether a path names a regular file. -/
def isRegular (world : World) (path : Path) : Bool :=
  match world.files.kind? world.cwd path with
  | some (.file _) => true
  | _ => false

/-- The file that an import of a unit means. -/
def target?
    (world : World)
    (options : ImportOptions)
    (unit : SourceUnit)
    (rule : ImportRule) : Option Path :=
  (ImportSpecifier.candidates options unit.path rule.specifier).find?
    (isRegular world)

/-- What some imports of a unit come to. -/
structure Linked where
  pieces : List (Span × Option LinkedSheet)
  /-- Where the unit's text goes on after the last import. -/
  cursor : Nat
  seenAfter : List Path

namespace Linked

/-- With one more piece in front. -/
def withPiece (piece : Span × Option LinkedSheet) (linked : Linked) : Linked :=
  { linked with pieces := piece :: linked.pieces }

/-- The sheet of a unit whose imports these are. -/
def toSheet (linked : Linked) (unit : SourceUnit) : LinkedSheet :=
  .sheet unit linked.pieces (tailOf unit linked.cursor)

end Linked

/-- What pieces say without their measure. -/
def Pieces.toLinked {seen : List Path} (pieces : Pieces seen) : Linked :=
  ⟨pieces.pieces, pieces.cursor, pieces.seenAfter⟩

/-- What the imports left of a unit come to in a world. -/
inductive Links (world : World) (options : ImportOptions) :
    SourceUnit → List ImportRule → Nat → List Path → Except CompileError Linked → Prop
  /-- No imports are left. -/
  | nil (unit : SourceUnit) (cursor : Nat) (seen : List Path) :
      Links world options unit [] cursor seen (.ok ⟨[], cursor, seen⟩)
  /-- No file stands for the import. -/
  | missing
      {unit : SourceUnit}
      {rule : ImportRule}
      (rest : List ImportRule)
      (cursor : Nat)
      (seen : List Path)
      (absent : target? world options unit rule = none) :
      Links world options unit (rule :: rest) cursor seen
        (.error (unit.importError rule (.importNotFound rule.specifier)))
  /-- The file has been seen. -/
  | again
      {unit : SourceUnit}
      {rule : ImportRule}
      {rest : List ImportRule}
      {cursor : Nat}
      {seen : List Path}
      {target : Path}
      {outcome : Except CompileError Linked}
      (found : target? world options unit rule = some target)
      (old : hasSeen seen target = true)
      (others : Links world options unit rest rule.span.stop seen outcome) :
      Links world options unit (rule :: rest) cursor seen
        (outcome.map (Linked.withPiece (⟨cursor, rule.span.start⟩, none)))
  /-- The file cannot be read. -/
  | unreadable
      {unit : SourceUnit}
      {rule : ImportRule}
      (rest : List ImportRule)
      (cursor : Nat)
      {seen : List Path}
      {target : Path}
      {problem : FileError}
      (found : target? world options unit rule = some target)
      (new : hasSeen seen target = false)
      (content : world.files.read world.cwd target = .error problem) :
      Links world options unit (rule :: rest) cursor seen
        (.error (unit.importError rule (.importUnreadable target problem)))
  /-- The text of the file has a fault. -/
  | faulty
      {unit : SourceUnit}
      {rule : ImportRule}
      (rest : List ImportRule)
      (cursor : Nat)
      {seen : List Path}
      {target : Path}
      {source : Text}
      {problem : CompileError}
      (found : target? world options unit rule = some target)
      (new : hasSeen seen target = false)
      (content : world.files.read world.cwd target = .ok source)
      (parsed : SourceUnit.ofFile target source = .error problem) :
      Links world options unit (rule :: rest) cursor seen (.error problem)
  /-- An import of the file cannot be followed. -/
  | broken
      {unit imported : SourceUnit}
      {rule : ImportRule}
      (rest : List ImportRule)
      (cursor : Nat)
      {seen : List Path}
      {target : Path}
      {source : Text}
      {problem : CompileError}
      (found : target? world options unit rule = some target)
      (new : hasSeen seen target = false)
      (content : world.files.read world.cwd target = .ok source)
      (parsed : SourceUnit.ofFile target source = .ok imported)
      (within : Links world options imported imported.imports 0 (target :: seen)
        (.error problem)) :
      Links world options unit (rule :: rest) cursor seen (.error problem)
  /-- The sheet of the file takes the place of the import. -/
  | fresh
      {unit imported : SourceUnit}
      {rule : ImportRule}
      {rest : List ImportRule}
      {cursor : Nat}
      {seen : List Path}
      {target : Path}
      {source : Text}
      {inner : Linked}
      {outcome : Except CompileError Linked}
      (found : target? world options unit rule = some target)
      (new : hasSeen seen target = false)
      (content : world.files.read world.cwd target = .ok source)
      (parsed : SourceUnit.ofFile target source = .ok imported)
      (within : Links world options imported imported.imports 0 (target :: seen)
        (.ok inner))
      (others : Links world options unit rest rule.span.stop inner.seenAfter outcome) :
      Links world options unit (rule :: rest) cursor seen
        (outcome.map
          (Linked.withPiece (⟨cursor, rule.span.start⟩, some (inner.toSheet imported))))

/-! ## Runs -/

theorem run_isFile (world : World) (path : Path) :
    (Action.isFile path).run world = (isRegular world path, world) := by
  unfold Action.isFile isRegular
  rw [Action.run_bind]
  change ((match world.files.kind? world.cwd path with
    | some (.file _) => Action.done true
    | _ => Action.done false).run world) = _
  split <;> rfl

/-- A path that names a regular file is short enough. -/
theorem isAdmissible_of_isRegular
    {world : World}
    {path : Path}
    (regular : isRegular world path = true) :
    path.isAdmissible = true := by
  unfold isRegular at regular
  split at regular
  · next named => exact FileSystem.isAdmissible_of_kind? named
  · exact absurd regular nofun

/-- Looking for a file finds the first regular one and changes nothing. -/
theorem run_findFile (world : World) (candidates : List Path) :
    (findFile candidates).run world = (candidates.find? (isRegular world), world) := by
  unfold findFile
  induction candidates with
  | nil => rfl
  | cons path rest inductionHypothesis =>
      have test : (if path.isAdmissible = true then Action.isFile path
          else .done false).run world = (isRegular world path, world) := by
        split
        · exact run_isFile world path
        · next tooLong =>
            cases regular : isRegular world path with
            | false => rfl
            | true => exact absurd (isAdmissible_of_isRegular regular) tooLong
      rw [Action.findFirst, Action.run_bind, test, List.find?_cons]
      cases regular : isRegular world path with
      | true => rfl
      | false => exact inductionHypothesis

/-- A file that is found is short enough to be entered. -/
theorem isAdmissible_of_target?
    {world : World}
    {options : ImportOptions}
    {unit : SourceUnit}
    {rule : ImportRule}
    {target : Path}
    (found : target? world options unit rule = some target) :
    target.isAdmissible = true :=
  isAdmissible_of_isRegular (List.find?_some found)

theorem run_readText (world : World) (path : Path) :
    (Action.readText path).run world = (world.files.read world.cwd path, world) := rfl

/-- Every run ends as the rules say and leaves its world alone. -/
theorem run_linkImports
    (world : World)
    (options : ImportOptions)
    (unit : SourceUnit)
    (rules : List ImportRule)
    (cursor : Nat)
    (seen : List Path) :
    ((linkImports options unit rules cursor seen).run world).2 = world ∧
      Links world options unit rules cursor seen
        (((linkImports options unit rules cursor seen).run world).1.map
          Pieces.toLinked) := by
  cases rules with
  | nil =>
      rw [linkImports]
      exact ⟨rfl, .nil unit cursor seen⟩
  | cons rule rest =>
      rw [linkImports, Action.run_bind, run_findFile]
      have meant : (ImportSpecifier.candidates options unit.path rule.specifier).find?
          (isRegular world) = target? world options unit rule := rfl
      rw [meant]
      cases found : target? world options unit rule with
      | none => exact ⟨rfl, .missing rest cursor seen found⟩
      | some target =>
          have admissible := isAdmissible_of_target? found
          simp only
          by_cases new : hasSeen seen target = false
          · rw [dif_pos ⟨admissible, new⟩, Action.run_bind, run_readText]
            cases content : world.files.read world.cwd target with
            | error problem => exact ⟨rfl, .unreadable rest cursor found new content⟩
            | ok source =>
                cases parsed : SourceUnit.ofFile target source with
                | error problem =>
                    simp only [parsed]
                    exact ⟨rfl, .faulty rest cursor found new content parsed⟩
                | ok imported =>
                    simp only [parsed]
                    have within := run_linkImports world options imported
                      imported.imports 0 (target :: seen)
                    rw [Action.run_bind, within.1]
                    generalize ((linkImports options imported imported.imports 0
                      (target :: seen)).run world).1 = ran at within ⊢
                    rcases ran with problem | inner
                    · exact ⟨rfl, .broken rest cursor found new content parsed within.2⟩
                    · have entered : unseen inner.seenAfter < unseen seen :=
                        Nat.lt_of_le_of_lt inner.unseen_le
                          (unseen_cons_lt seen target admissible new)
                      have others := run_linkImports world options unit rest
                        rule.span.stop inner.seenAfter
                      have outcome : Links world options unit (rule :: rest) cursor seen _ :=
                        .fresh found new content parsed within.2 others.2
                      simp only
                      rw [Action.run_bind, others.1]
                      generalize ((linkImports options unit rest rule.span.stop
                        inner.seenAfter).run world).1 = after at outcome ⊢
                      cases after with
                      | error problem => exact ⟨rfl, outcome⟩
                      | ok outer => exact ⟨rfl, outcome⟩
          · rw [dif_neg (fun both => new both.2), Action.run_bind]
            have old : hasSeen seen target = true := by simpa using new
            have others := run_linkImports world options unit rest rule.span.stop seen
            rw [others.1]
            have outcome : Links world options unit (rule :: rest) cursor seen _ :=
              .again found old others.2
            generalize ((linkImports options unit rest rule.span.stop seen).run world).1 =
              ran at outcome ⊢
            cases ran with
            | error problem => exact ⟨rfl, outcome⟩
            | ok outer => exact ⟨rfl, outcome⟩
  termination_by (unseen seen, rules.length)
  decreasing_by
    · exact Prod.Lex.left _ _ (unseen_cons_lt seen target admissible new)
    · exact Prod.Lex.left _ _ entered
    · exact Prod.Lex.right _ (Nat.lt_succ_self _)

/-- One import is followed into one unit. -/
theorem imported_unique
    {world : World}
    {options : ImportOptions}
    {unit left right : SourceUnit}
    {rule : ImportRule}
    {target other : Path}
    {source text : Text}
    (found : target? world options unit rule = some target)
    (foundToo : target? world options unit rule = some other)
    (content : world.files.read world.cwd target = .ok source)
    (contentToo : world.files.read world.cwd other = .ok text)
    (parsed : SourceUnit.ofFile target source = .ok left)
    (parsedToo : SourceUnit.ofFile other text = .ok right) :
    target = other ∧ left = right := by
  obtain rfl := Option.some.inj (found.symm.trans foundToo)
  obtain rfl := Except.ok.inj (content.symm.trans contentToo)
  exact ⟨rfl, Except.ok.inj (parsed.symm.trans parsedToo)⟩

/-- The rules give one outcome only. -/
theorem Links.unique
    {world : World}
    {options : ImportOptions}
    {unit : SourceUnit}
    {rules : List ImportRule}
    {cursor : Nat}
    {seen : List Path}
    {left right : Except CompileError Linked}
    (one : Links world options unit rules cursor seen left)
    (other : Links world options unit rules cursor seen right) :
    left = right := by
  induction one generalizing right with
  | nil unit cursor seen =>
      cases other with
      | nil => rfl
  | missing rest cursor seen absent => cases other <;> simp_all
  | again found old others inductionHypothesis =>
      cases other with
      | again foundToo _ othersToo => rw [inductionHypothesis othersToo]
      | _ => simp_all
  | unreadable rest cursor found new content => cases other <;> simp_all
  | faulty rest cursor found new content parsed => cases other <;> simp_all
  | broken rest cursor found new content parsed within inductionHypothesis =>
      cases other with
      | broken _ _ foundToo _ contentToo parsedToo withinToo =>
          obtain ⟨rfl, rfl⟩ :=
            imported_unique found foundToo content contentToo parsed parsedToo
          exact inductionHypothesis withinToo
      | fresh foundToo _ contentToo parsedToo withinToo _ =>
          obtain ⟨rfl, rfl⟩ :=
            imported_unique found foundToo content contentToo parsed parsedToo
          exact absurd (inductionHypothesis withinToo) nofun
      | _ => simp_all
  | fresh found new content parsed within others withinHypothesis othersHypothesis =>
      cases other with
      | broken _ _ foundToo _ contentToo parsedToo withinToo =>
          obtain ⟨rfl, rfl⟩ :=
            imported_unique found foundToo content contentToo parsed parsedToo
          exact absurd (withinHypothesis withinToo) nofun
      | fresh foundToo _ contentToo parsedToo withinToo othersToo =>
          obtain ⟨rfl, rfl⟩ :=
            imported_unique found foundToo content contentToo parsed parsedToo
          obtain rfl := Except.ok.inj (withinHypothesis withinToo)
          rw [othersHypothesis othersToo]
      | _ => simp_all

/-- Induction over what links without an error. -/
@[elab_as_elim]
theorem Links.inductionOk
    {world : World}
    {options : ImportOptions}
    {motive : ∀ {unit rules cursor seen linked},
      Links world options unit rules cursor seen (.ok linked) → Prop}
    (nil : ∀ unit cursor seen, motive (.nil unit cursor seen))
    (again : ∀ {unit rule rest cursor seen target linked}
      (found : target? world options unit rule = some target)
      (old : hasSeen seen target = true)
      (others : Links world options unit rest rule.span.stop seen (.ok linked)),
      motive others →
        @motive unit (rule :: rest) cursor seen
          (linked.withPiece (⟨cursor, rule.span.start⟩, none))
          (.again found old others))
    (fresh : ∀ {unit imported rule rest cursor seen target source inner linked}
      (found : target? world options unit rule = some target)
      (new : hasSeen seen target = false)
      (content : world.files.read world.cwd target = .ok source)
      (parsed : SourceUnit.ofFile target source = .ok imported)
      (within : Links world options imported imported.imports 0 (target :: seen)
        (.ok inner))
      (others : Links world options unit rest rule.span.stop inner.seenAfter (.ok linked)),
      motive within → motive others →
        @motive unit (rule :: rest) cursor seen
          (linked.withPiece
            (⟨cursor, rule.span.start⟩, some (inner.toSheet imported)))
          (.fresh found new content parsed within others))
    {unit : SourceUnit}
    {rules : List ImportRule}
    {cursor : Nat}
    {seen : List Path}
    {linked : Linked}
    (links : Links world options unit rules cursor seen (.ok linked)) :
    motive links := by
  suffices general : ∀ {outcome} (links : Links world options unit rules cursor seen outcome)
      {linked} (whole : outcome = .ok linked), motive (whole ▸ links) from
    general links rfl
  clear links
  intro outcome links
  induction links with
  | nil unit cursor seen =>
      rintro linked ⟨⟩
      exact nil unit cursor seen
  | missing rest cursor seen absent => exact nofun
  | @again _ _ _ _ _ _ outcome found old others inductionHypothesis =>
      cases outcome with
      | error problem => exact nofun
      | ok rest =>
          rintro linked ⟨⟩
          exact again found old others (inductionHypothesis rfl)
  | unreadable rest cursor found new content => exact nofun
  | faulty rest cursor found new content parsed => exact nofun
  | broken rest cursor found new content parsed within => exact nofun
  | @fresh _ _ _ _ _ _ _ _ _ outcome found new content parsed within others
      withinHypothesis othersHypothesis =>
      cases outcome with
      | error problem => exact nofun
      | ok rest =>
          rintro linked ⟨⟩
          exact fresh found new content parsed within others (withinHypothesis rfl)
            (othersHypothesis rfl)

/-! ## Whole files -/

/-- What linking a file comes to. -/
inductive LinksFile
    (world : World)
    (options : ImportOptions)
    (path : Path)
    (source : Text) : Except CompileError LinkedSheet → Prop
  /-- The text of the file has a fault. -/
  | faulty
      {problem : CompileError}
      (parsed : SourceUnit.ofFile path source = .error problem) :
      LinksFile world options path source (.error problem)
  /-- The imports of the file come to something. -/
  | parsed
      {unit : SourceUnit}
      {outcome : Except CompileError Linked}
      (parsed : SourceUnit.ofFile path source = .ok unit)
      (links : Links world options unit unit.imports 0 [path] outcome) :
      LinksFile world options path source (outcome.map (·.toSheet unit))

theorem LinksFile.unique
    {world : World}
    {options : ImportOptions}
    {path : Path}
    {source : Text}
    {left right : Except CompileError LinkedSheet}
    (one : LinksFile world options path source left)
    (other : LinksFile world options path source right) :
    left = right := by
  cases one with
  | faulty parsed => cases other <;> simp_all
  | parsed parsed links =>
      cases other with
      | faulty parsedToo => simp_all
      | parsed parsedToo linksToo =>
          obtain rfl := Except.ok.inj (parsed.symm.trans parsedToo)
          rw [links.unique linksToo]

/-- A linked sheet is that of the unit of its file. -/
theorem LinksFile.exists_linked
    {world : World}
    {options : ImportOptions}
    {path : Path}
    {source : Text}
    {sheet : LinkedSheet}
    (links : LinksFile world options path source (.ok sheet)) :
    ∃ unit linked,
      SourceUnit.ofFile path source = .ok unit ∧
        Links world options unit unit.imports 0 [path] (.ok linked) ∧
        sheet = linked.toSheet unit := by
  generalize whole : (Except.ok sheet : Except CompileError LinkedSheet) = outcome at links
  cases links with
  | faulty parsed => exact absurd whole nofun
  | @parsed unit outcome parsed links =>
      cases outcome with
      | error problem => exact absurd whole nofun
      | ok linked => exact ⟨unit, linked, parsed, links, Except.ok.inj whole⟩

/-- Every run on a file ends as the rules say and leaves its world alone. -/
theorem run_link
    (world : World)
    (options : ImportOptions)
    (path : Path)
    (source : Text) :
    ((link options path source).run world).2 = world ∧
      LinksFile world options path source ((link options path source).run world).1 := by
  unfold link
  cases parsed : SourceUnit.ofFile path source with
  | error problem => exact ⟨rfl, .faulty parsed⟩
  | ok unit =>
      have links := run_linkImports world options unit unit.imports 0 [path]
      have outcome : LinksFile world options path source _ := .parsed parsed links.2
      simp only
      rw [Action.run_bind, links.1]
      generalize ((linkImports options unit unit.imports 0 [path]).run world).1 =
        ran at outcome ⊢
      cases ran with
      | error problem => exact ⟨rfl, outcome⟩
      | ok inner => exact ⟨rfl, outcome⟩

end LinkedSheet
end StyleTypings
