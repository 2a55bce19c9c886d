import StyleTypings.Proofs.Compile.Fragments
import StyleTypings.Proofs.Compile.Remaining
import StyleTypings.Proofs.Compile.Tracing

/-!
# The rule tree of a bundle

The text compiled is parsed again as a whole. It never has a fault, and if no imported
unit leaves a statement open, its rule tree is that of the file compiled with the rule
trees of the imported files in place of the imports.

Each unit is valid by itself, but the end of its text also ends an at-rule without a
semicolon, which the line feed behind an imported file does not. Such an at-rule takes
in what follows the import.
-/

open StyleTypings.Parser (ReadsAs ReadsAllAs Closes Continuable)

namespace StyleTypings

/-- Nodes without their places, and outlines in place of the imports among them. -/
def splice : List Node → List (List Outline) → List Outline
  | [], _ => []
  | node :: rest, replacements =>
      match ImportRule.ofNode? node with
      | none => node.outline :: splice rest replacements
      | some _ => replacements.headD [] ++ splice rest replacements.tail

@[simp] theorem splice_nil (replacements : List (List Outline)) :
    splice [] replacements = [] := rfl

theorem splice_cons_of_isImport
    {node : Node}
    {rule : ImportRule}
    (isImport : ImportRule.ofNode? node = some rule)
    (rest : List Node)
    (outlines : List Outline)
    (replacements : List (List Outline)) :
    splice (node :: rest) (outlines :: replacements) = outlines ++ splice rest replacements := by
  rw [splice, isImport]
  rfl

/-- Nothing is put in place of what is no import. -/
theorem splice_append
    {before : List Node}
    (plain : ∀ node ∈ before, ImportRule.ofNode? node = none)
    (rest : List Node)
    (replacements : List (List Outline)) :
    splice (before ++ rest) replacements = Node.outlineAll before ++ splice rest replacements := by
  induction before with
  | nil => rfl
  | cons node before inductionHypothesis =>
      rw [List.cons_append, splice, plain node List.mem_cons_self,
        inductionHypothesis fun other present => plain other (List.mem_cons_of_mem _ present)]
      rfl

theorem splice_of_plain
    {nodes : List Node}
    (plain : ∀ node ∈ nodes, ImportRule.ofNode? node = none)
    (replacements : List (List Outline)) :
    splice nodes replacements = Node.outlineAll nodes := by
  have spliced := splice_append plain [] replacements
  rwa [List.append_nil, splice_nil, List.append_nil] at spliced

/-- Comments behind all nodes stay behind them. -/
theorem splice_append_comments
    {comments : List Node}
    (areComments : ∀ node ∈ comments, ∃ text span, node = .comment text span)
    (nodes : List Node)
    (replacements : List (List Outline)) :
    splice (nodes ++ comments) replacements =
      splice nodes replacements ++ Node.outlineAll comments := by
  induction nodes generalizing replacements with
  | nil =>
      have plain : ∀ node ∈ comments, ImportRule.ofNode? node = none := by
        intro node present
        obtain ⟨text, span, rfl⟩ := areComments node present
        rfl
      exact splice_of_plain plain replacements
  | cons node rest inductionHypothesis =>
      rw [List.cons_append, splice, splice]
      split
      · rw [inductionHypothesis, List.cons_append]
      · rw [inductionHypothesis, List.append_assoc]

namespace LinkedSheet

mutual

/-- The rule tree of a unit with the rule trees of the sheets that are put in place of
its imports. -/
def outlines : LinkedSheet → List Outline
  | .sheet unit pieces _ => splice unit.rules (replacements pieces)

/-- What comes in place of each import. -/
def replacements : List (Span × Option LinkedSheet) → List (List Outline)
  | [] => []
  | (_, none) :: rest => [] :: replacements rest
  | (_, some inner) :: rest => inner.outlines :: replacements rest

end

theorem replacements_again (range : Span) (linked : Linked) :
    replacements (linked.withPiece (range, none)).pieces = [] :: replacements linked.pieces := rfl

theorem replacements_fresh (range : Span) (imported : SourceUnit) (inner linked : Linked) :
    replacements (linked.withPiece (range, some (inner.toSheet imported))).pieces =
      splice imported.rules (replacements inner.pieces) :: replacements linked.pieces := rfl

/-! ## Adding units to a text -/

/-- What is said of a text and outlines goes on to hold as parts of units are added:
those that are read to their end, and the last part of an imported unit with the line
feed behind it. -/
structure Carries
    (holds : Text → List Outline → Prop)
    (imported : List SourceUnit) : Prop where
  copied {css text : Text} {first second : List Outline} :
    holds css first → ReadsAs text second → holds (css ++ text) (first ++ second)
  inlined {unit : SourceUnit} {css text : Text} {first second : List Outline} :
    unit ∈ imported → holds css first → ReadsAllAs text second →
      (unit.IsClosed → ReadsAs text second) →
        holds (css ++ text ++ Fragment.join (Fragment.feedAfter (css ++ text))) (first ++ second)

theorem Carries.of_subset
    {holds : Text → List Outline → Prop}
    {imported fewer : List SourceUnit}
    (carries : Carries holds imported)
    (among : fewer ⊆ imported) :
    Carries holds fewer :=
  ⟨carries.copied, fun present => carries.inlined (among present)⟩

/-- What is carried holds up to the last import of a unit, behind which the rest of the
unit is read by itself. -/
def Carried
    (holds : Text → List Outline → Prop)
    (unit : SourceUnit)
    (css : Text)
    (outlines : List Outline)
    (fragments : List Fragment)
    (body tail : List Outline) : Prop :=
  ∃ front back, Fragment.join fragments = front ++ back ∧
    holds (css ++ front) (outlines ++ body) ∧ ReadsAllAs back tail ∧
      (unit.IsClosed → ReadsAs back tail)

/-- With a part of the unit in front. -/
theorem Carried.copied
    {holds : Text → List Outline → Prop}
    {unit : SourceUnit}
    {css : Text}
    {outlines more body tail : List Outline}
    {fragments : List Fragment}
    {range : Span}
    (carried : Carried holds unit (css ++ range.slice unit.text) (outlines ++ more) fragments
      body tail) :
    Carried holds unit css outlines (.copied unit range :: fragments) (more ++ body) tail := by
  obtain ⟨front, back, split, held, reads⟩ := carried
  refine ⟨range.slice unit.text ++ front, back, ?_, ?_, reads⟩
  · rw [Fragment.join_cons, split, List.append_assoc]
    rfl
  · rwa [← List.append_assoc, ← List.append_assoc]

/-- With fragments in front. -/
theorem Carried.inlined
    {holds : Text → List Outline → Prop}
    {unit : SourceUnit}
    {css : Text}
    {outlines more body tail : List Outline}
    {fragments inlined : List Fragment}
    (carried : Carried holds unit (css ++ Fragment.join inlined) (outlines ++ more) fragments
      body tail) :
    Carried holds unit css outlines (inlined ++ fragments) (more ++ body) tail := by
  obtain ⟨front, back, split, held, reads⟩ := carried
  refine ⟨Fragment.join inlined ++ front, back, ?_, ?_, reads⟩
  · rw [Fragment.join_append, split, List.append_assoc]
  · rwa [← List.append_assoc, ← List.append_assoc]

/-- What is carried holds of all that the imports of a unit come to. -/
theorem Links.exists_carried
    {world : World}
    {options : ImportOptions}
    {unit : SourceUnit}
    {rules : List ImportRule}
    {cursor : Nat}
    {seen : List Path}
    {linked : Linked}
    (links : Links world options unit rules cursor seen (.ok linked))
    {holds : Text → List Outline → Prop}
    (carries : Carries holds (unitsOfPieces linked.pieces))
    {nodes : List Node}
    (remains : unit.Remains cursor rules nodes)
    (css : Text)
    (outlines : List Outline)
    (held : holds css outlines) :
    ∃ body tail, Carried holds unit css outlines (linked.fragments css unit) body tail ∧
      Outline.withoutComments (body ++ tail) =
          Outline.withoutComments (splice nodes (replacements linked.pieces)) ∧
        ((∀ other ∈ unit :: unitsOfPieces linked.pieces, other.EndsBlank) →
          body ++ tail = splice nodes (replacements linked.pieces)) := by
  -- The text and outlines in front grow from import to import, so both are generalized.
  induction links using Links.inductionOk generalizing nodes css outlines with
  | nil unit cursor seen =>
      obtain ⟨reads, closed⟩ := remains.tail
      have plain := List.filterMap_eq_nil_iff.mp remains.imports
      refine ⟨[], Node.outlineAll nodes, ⟨[], Span.slice ⟨cursor, unit.text.byteSize⟩ unit.text,
        List.append_nil _, ?_, reads, closed⟩, ?_, fun _ => (splice_of_plain plain _).symm⟩
      · rwa [List.append_nil, List.append_nil]
      · rw [splice_of_plain plain, List.nil_append]
  | @again unit rule rest cursor seen target linked _ _ _ inductionHypothesis =>
      obtain ⟨before, node, after, comments, rfl, plain, isImport, reads, later, areComments,
        blank⟩ := remains.divide
      obtain ⟨body, tail, carried, alike, spliced⟩ :=
        inductionHypothesis carries later _ _ (carries.copied held reads)
      rw [splice_append_comments areComments] at alike spliced
      rw [replacements_again, splice_append plain, splice_cons_of_isImport isImport]
      refine ⟨_, tail, carried.copied, ?_, fun endsBlank => ?_⟩
      · rw [List.append_assoc, Outline.withoutComments_append, alike,
          Outline.withoutComments_append,
          Outline.withoutComments_outlineAll_eq_nil areComments, List.append_nil,
          List.nil_append, Outline.withoutComments_append]
      · obtain rfl := blank (endsBlank unit List.mem_cons_self)
        rw [List.append_assoc, spliced endsBlank, Node.outlineAll_nil, List.append_nil,
          List.nil_append]
  | @fresh unit imported rule rest cursor seen target source inner linked _ _ _ parsed _ _
      withinHypothesis othersHypothesis =>
      rw [unitsOfPieces_fresh] at carries ⊢
      obtain ⟨before, node, after, comments, rfl, plain, isImport, reads, later, areComments,
        blank⟩ := remains.divide
      obtain ⟨innerBody, innerTail, innerCarried, innerAlike, innerSpliced⟩ := withinHypothesis
        (carries.of_subset fun other present =>
          List.mem_cons_of_mem _ (List.mem_append_left _ present))
        (SourceUnit.remains_of_ofFile parsed) _ _ (carries.copied held reads)
      -- Only the last part of the imported unit may leave a statement open behind it.
      obtain ⟨front, back, split, innerHeld, readsAll, readsClosed⟩ := innerCarried
      have ended := carries.inlined List.mem_cons_self innerHeld readsAll readsClosed
      rw [List.append_assoc _ front back, ← split, List.append_assoc _ innerBody innerTail,
        List.append_assoc _ (Fragment.join _) (Fragment.join _), ← Fragment.join_append] at ended
      obtain ⟨body, tail, carried, alike, spliced⟩ := othersHypothesis
        (carries.of_subset fun other present =>
          List.mem_cons_of_mem _ (List.mem_append_right _ present)) later _ _ ended
      rw [splice_append_comments areComments] at alike spliced
      rw [Linked.fragments_fresh, replacements_fresh, splice_append plain,
        splice_cons_of_isImport isImport]
      refine ⟨_, tail, carried.inlined.copied, ?_, fun endsBlank => ?_⟩
      · rw [List.append_assoc, List.append_assoc, Outline.withoutComments_append,
          Outline.withoutComments_append, innerAlike, alike, Outline.withoutComments_append,
          Outline.withoutComments_outlineAll_eq_nil areComments, List.append_nil,
          Outline.withoutComments_append, Outline.withoutComments_append]
      · obtain rfl := blank (endsBlank unit List.mem_cons_self)
        simp only [List.forall_mem_cons, List.forall_mem_append] at endsBlank
        obtain ⟨own, first, within, behind⟩ := endsBlank
        rw [List.append_assoc, List.append_assoc,
          spliced (List.forall_mem_cons.mpr ⟨own, behind⟩),
          innerSpliced (List.forall_mem_cons.mpr ⟨first, within⟩), Node.outlineAll_nil,
          List.append_nil]

/-- Behind an imported file another text can follow: where no line feed is added, the
text is empty or ends with one. -/
theorem continuable_feedAfter
    {css : Text}
    (ready : (Parser.State.behind css).Ready) :
    Continuable (css ++ Fragment.join (Fragment.feedAfter css)) := by
  unfold Fragment.feedAfter
  split
  · next ended =>
      rw [Fragment.join_nil, List.append_nil]
      rcases ended with empty | feed
      · rw [List.isEmpty_iff.mp empty]
        exact Parser.continuable_nil
      · exact Parser.continuable_of_getLast? ready feed
  · exact Parser.continuable_append_lineFeed ready

/-- That nothing is at fault is carried whatever the units leave open. -/
theorem carries_continuable (imported : List SourceUnit) :
    Carries (fun css _ => Continuable css) imported where
  copied continuable reads := continuable.append reads
  inlined _ continuable reads _ :=
    continuable_feedAfter
      (Parser.ready_behind_append continuable.ready (continuable.apart.joins _) reads)

/-- The outlines of what has been added are carried by units that leave nothing open. -/
theorem carries_closes
    {imported : List SourceUnit}
    (closed : ∀ unit ∈ imported, unit.IsClosed) :
    Carries Closes imported where
  copied closes reads := closes.append reads
  inlined := by
    intro unit css text first second present closes _ reads
    have ended := closes.append (reads (closed unit present))
    unfold Fragment.feedAfter
    split
    · rwa [Fragment.join_nil, List.append_nil]
    · have fed := ended.append Parser.readsAs_lineFeed
      rwa [List.append_nil] at fed

end LinkedSheet

/-! ## Classes -/

/-- The nodes of a unit outside all blocks that are no local imports. -/
def SourceUnit.ownRules (unit : SourceUnit) : List Node :=
  unit.rules.filter fun node => (ImportRule.ofNode? node).isNone

/-- Where nodes divide at an import, those that are no imports do. -/
theorem filter_isNone_ofNode?
    {before after : List Node}
    {node : Node}
    {rule : ImportRule}
    (plain : ∀ other ∈ before, ImportRule.ofNode? other = none)
    (isImport : ImportRule.ofNode? node = some rule) :
    (before ++ node :: after).filter (fun other => (ImportRule.ofNode? other).isNone) =
      before ++ after.filter fun other => (ImportRule.ofNode? other).isNone := by
  rw [List.filter_append, List.filter_cons_of_neg (by simp [isImport]),
    List.filter_eq_self.mpr fun other present => by simp [plain other present]]

namespace LinkedSheet

/-- The classes of a sheet are those of its units outside of the imports. -/
theorem Links.mem_classesAll_iff
    {world : World}
    {options : ImportOptions}
    {unit : SourceUnit}
    {rules : List ImportRule}
    {cursor : Nat}
    {seen : List Path}
    {linked : Linked}
    (links : Links world options unit rules cursor seen (.ok linked))
    {nodes : List Node}
    (imports : nodes.filterMap ImportRule.ofNode? = rules)
    (name : Text) :
    name ∈ Outline.classesAll (splice nodes (replacements linked.pieces)) ↔
      name ∈ Exported.ofForest (nodes.filter fun node => (ImportRule.ofNode? node).isNone) ∨
        ∃ other ∈ unitsOfPieces linked.pieces, name ∈ Exported.ofForest other.ownRules := by
  rw [← Outline.classesAll_outlineAll]
  induction links using Links.inductionOk generalizing nodes with
  | nil unit cursor seen =>
      have plain := List.filterMap_eq_nil_iff.mp imports
      have all : nodes.filter (fun node => (ImportRule.ofNode? node).isNone) = nodes :=
        List.filter_eq_self.mpr fun node present => by simp [plain node present]
      rw [splice_of_plain plain, all]
      simp [unitsOfPieces]
  | @again unit rule rest cursor seen target linked _ _ _ inductionHypothesis =>
      obtain ⟨before, node, after, rfl, plain, isImport, later⟩ :=
        List.filterMap_eq_cons_iff.mp imports
      rw [replacements_again, unitsOfPieces_again, splice_append plain,
        splice_cons_of_isImport isImport, filter_isNone_ofNode? plain isImport, List.nil_append,
        Node.outlineAll_append, Outline.classesAll_append, Outline.classesAll_append,
        List.mem_append, List.mem_append, inductionHypothesis later, or_assoc]
  | @fresh unit imported rule rest cursor seen target source inner linked _ _ _ parsed _ _
      withinHypothesis othersHypothesis =>
      obtain ⟨before, node, after, rfl, plain, isImport, later⟩ :=
        List.filterMap_eq_cons_iff.mp imports
      have within : name ∈ Outline.classesAll
            (splice imported.rules (replacements inner.pieces)) ↔
          name ∈ Exported.ofForest imported.ownRules ∨
            ∃ other ∈ unitsOfPieces inner.pieces, name ∈ Exported.ofForest other.ownRules := by
        rw [withinHypothesis (SourceUnit.remains_of_ofFile parsed).imports,
          Outline.classesAll_outlineAll]
        rfl
      rw [replacements_fresh, unitsOfPieces_fresh, splice_append plain,
        splice_cons_of_isImport isImport, filter_isNone_ofNode? plain isImport,
        Node.outlineAll_append, Outline.classesAll_append, Outline.classesAll_append,
        Outline.classesAll_append,
        List.mem_append, List.mem_append, List.mem_append, within, othersHypothesis later]
      simp only [List.mem_cons, List.mem_append, or_and_right, exists_or, exists_eq_left]
      simp only [or_assoc, or_left_comm]

/-- The classes of a linked file are those of its units outside of the imports. -/
theorem LinksFile.mem_classesAll_outlines_iff
    {world : World}
    {options : ImportOptions}
    {path : Path}
    {source : Text}
    {sheet : LinkedSheet}
    (links : LinksFile world options path source (.ok sheet))
    (name : Text) :
    name ∈ Outline.classesAll sheet.outlines ↔
      ∃ unit ∈ sheet.units, name ∈ Exported.ofForest unit.ownRules := by
  obtain ⟨unit, linked, parsed, imported, rfl⟩ := links.exists_linked
  have units : (linked.toSheet unit).units = unit :: unitsOfPieces linked.pieces := rfl
  rw [units, List.exists_mem_cons_iff]
  exact imported.mem_classesAll_iff (SourceUnit.remains_of_ofFile parsed).imports name

end LinkedSheet

/-! ## Compilations -/

namespace Native

open LinkedSheet

/-- The text compiled has no fault. If no imported file ends in a statement without a
semicolon that is no local import, its rule tree is that of the file with those of the
imported files in place of the imports, but for comments that such imports had swallowed,
and it exports the classes of the units. -/
theorem compile_splices
    {world after : World}
    {options : CompileOptions}
    {source : Text}
    {output : CompileOutput}
    (compiled : (compile options source).run world = (.ok output, after)) :
    ∃ sheet,
      LinksFile world options.imports options.filename source (.ok sheet) ∧
        (Parser.parse output.css).faults = [] ∧
        ((∀ unit ∈ sheet.units.tail, unit.IsClosed) →
          Outline.withoutComments (Node.outlineAll (Parser.parse output.css).sheet.nodes) =
              Outline.withoutComments sheet.outlines ∧
            ((∀ unit ∈ sheet.units, unit.EndsBlank) →
              Node.outlineAll (Parser.parse output.css).sheet.nodes = sheet.outlines) ∧
            ∀ name, name ∈ (Parser.parse output.css).sheet.exported ↔
              ∃ unit ∈ sheet.units, name ∈ Exported.ofForest unit.ownRules) := by
  obtain ⟨sheet, links, rfl, -⟩ := exists_sheet_of_compile compiled
  obtain ⟨unit, linked, parsed, imported, rfl⟩ := links.exists_linked
  have remains := SourceUnit.remains_of_ofFile parsed
  have css : (outputOf options (linked.toSheet unit)).css =
      Fragment.join (linked.fragments [] unit) :=
    css_addSheet _ Bundle.empty _
  refine ⟨linked.toSheet unit, links, ?_, fun closed => ?_⟩
  · obtain ⟨body, tail, ⟨front, back, split, continuable, reads, -⟩, -⟩ :=
      imported.exists_carried (carries_continuable _) remains [] [] Parser.continuable_nil
    rw [css, split]
    exact Parser.faults_parse_of_ready
      (Parser.ready_behind_append continuable.ready (continuable.apart.joins back) reads)
  · obtain ⟨body, tail, ⟨front, back, split, closes, reads, -⟩, alike, spliced⟩ :=
      imported.exists_carried (carries_closes closed) remains [] [] Parser.closes_nil
    have parsedAs : Node.outlineAll (Parser.parse
        (outputOf options (linked.toSheet unit)).css).sheet.nodes = body ++ tail := by
      rw [css, split]
      exact (closes.parse reads).2
    rw [parsedAs]
    refine ⟨alike, spliced, fun name => ?_⟩
    unfold Stylesheet.exported
    rw [List.mem_eraseDups, ← Outline.classesAll_outlineAll, parsedAs,
      ← Outline.classesAll_withoutComments, alike, Outline.classesAll_withoutComments]
    exact links.mem_classesAll_outlines_iff name

theorem compile_splices_respelled :
    (compile respelledOptions respelled).run respelledWorld =
        (.ok (outputOf respelledOptions respelledSheet), respelledWorld) ∧
      (∀ unit ∈ respelledSheet.units, unit.EndsBlank) ∧
        (∀ unit ∈ respelledSheet.units.tail, unit.IsClosed) ∧
          Node.outlineAll (Parser.parse ".a {}\n\n.a {}\n".toList).sheet.nodes =
            respelledSheet.outlines := by
  obtain ⟨outcome, links, ran⟩ := run_compile respelledWorld respelledOptions respelled
  obtain rfl := links.unique links_respelled
  have finished : ∀ unit ∈ respelledSheet.units, ∀ node ∈ unit.rules,
      node.isUnfinished = false := by decide +kernel
  have endsBlank : ∀ unit ∈ respelledSheet.units, unit.EndsBlank := by
    intro unit among node present isUnfinished
    rw [finished unit among node present] at isUnfinished
    exact absurd isUnfinished nofun
  have closed : ∀ unit ∈ respelledSheet.units.tail, unit.IsClosed := by
    intro unit among node present isUnfinished
    rw [finished unit (List.mem_of_mem_tail among) node present] at isUnfinished
    exact absurd isUnfinished nofun
  have text : (outputOf respelledOptions respelledSheet).css = ".a {}\n\n.a {}\n".toList := by
    decide +kernel
  obtain ⟨sheet, linked, -, outlines⟩ := compile_splices ran
  obtain rfl : respelledSheet = sheet := Except.ok.inj (links.unique linked)
  exact ⟨ran, endsBlank, closed, text ▸ (outlines closed).2.1 endsBlank⟩

/-! ## A statement without a semicolon -/

/-- An import in front of a rule. -/
def swallowing : Text :=
  "@import \"a.css\";\n.b {}\n"

/-- A statement that the end of its file ends. -/
def unfinished : Text :=
  "@charset \"utf-8\""

/-- A world with these two files. -/
def swallowingWorld : World :=
  .ofFiles
    ⟨[(["main.css".toList], .file (.text swallowing) false),
      (["a.css".toList], .file (.text unfinished) false)]⟩
    [] (fun _ => .failed [])

/-- The unit of the file with the import. -/
def swallowingUnit : SourceUnit :=
  { path := "main.css"
    text := swallowing
    starts := [0, 17]
    imports := [⟨"a.css", ⟨0, 16⟩⟩] }

/-- The unit of the file imported. -/
def unfinishedUnit : SourceUnit :=
  { path := "a.css"
    text := unfinished
    starts := [0]
    imports := [] }

/-- The linked style sheet. -/
def swallowingSheet : LinkedSheet :=
  .sheet swallowingUnit [(⟨0, 0⟩, some (.sheet unfinishedUnit [] ⟨0, 16⟩))] ⟨16, 23⟩

theorem links_swallowing :
    LinksFile swallowingWorld respelledOptions.imports "main.css" swallowing
      (.ok swallowingSheet) := by
  have parsed : SourceUnit.ofFile "main.css" swallowing = .ok swallowingUnit :=
    ok_of_toOption (by decide +kernel)
  have imported : SourceUnit.ofFile "a.css" unfinished = .ok unfinishedUnit :=
    ok_of_toOption (by decide +kernel)
  have found : target? swallowingWorld respelledOptions.imports swallowingUnit
      ⟨"a.css", ⟨0, 16⟩⟩ = some "a.css" := by decide +kernel
  exact .parsed parsed <| .fresh found (by decide +kernel) rfl imported (.nil _ _ _)
    (.nil swallowingUnit 16 _)

/-- The statement takes in the rule behind the import, whose class is lost. -/
theorem unfinished_swallows :
    (compile respelledOptions swallowing).run swallowingWorld =
        (.ok (outputOf respelledOptions swallowingSheet), swallowingWorld) ∧
      LinksFile swallowingWorld respelledOptions.imports respelledOptions.filename swallowing
          (.ok swallowingSheet) ∧
        (outputOf respelledOptions swallowingSheet).css =
          "@charset \"utf-8\"\n\n.b {}\n".toList ∧
        Node.outlineAll (Parser.parse
            (outputOf respelledOptions swallowingSheet).css).sheet.nodes ≠
          swallowingSheet.outlines ∧
        (∃ unit ∈ swallowingSheet.units, "b".toList ∈ Exported.ofForest unit.ownRules) ∧
        (Parser.parse (outputOf respelledOptions swallowingSheet).css).sheet.exported = [] := by
  obtain ⟨outcome, links, ran⟩ := run_compile swallowingWorld respelledOptions swallowing
  obtain rfl := links.unique links_swallowing
  have kept : Outline.classesAll swallowingSheet.outlines = ["b".toList] := by decide +kernel
  have lost : Exported.ofForest (Parser.parse
      (outputOf respelledOptions swallowingSheet).css).sheet.nodes = [] := by decide +kernel
  refine ⟨ran, links, by decide +kernel, fun same => ?_, ?_, ?_⟩
  · have classes := congrArg Outline.classesAll same
    rw [Outline.classesAll_outlineAll, lost, kept] at classes
    exact absurd classes nofun
  · exact (links.mem_classesAll_outlines_iff _).mp (kept ▸ List.mem_singleton_self _)
  · unfold Stylesheet.exported
    rw [lost]
    rfl

end Native
end StyleTypings
