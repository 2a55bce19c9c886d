import StyleTypings.Proofs.Classes.Counting
import StyleTypings.Proofs.Classes.Locating
import StyleTypings.Proofs.Compile.Tracing
import StyleTypings.Proofs.Declaration.Mapping
import StyleTypings.Proofs.Files.Naming
import StyleTypings.Session.Artifacts

/-!
# Where the names of a declaration come from

A style sheet without local imports is compiled to its own text, with each line
comment blanked out. The map of its declaration leads from the name on each
rendered line to the last rule of the style sheet whose selector is the class by
itself, at the rule's place in the text as it was written.
-/

namespace StyleTypings

/-! ## Files without local imports -/

/-- The sheet of a unit without local imports. -/
def LinkedSheet.ofUnit (unit : SourceUnit) : LinkedSheet :=
  .sheet unit [] (tailOf unit 0)

/-- A file without local imports is linked to its own unit. -/
theorem LinkedSheet.LinksFile.eq_ofUnit
    {world : World}
    {options : ImportOptions}
    {path : Path}
    {source : Text}
    {sheet : LinkedSheet}
    (links : LinksFile world options path source (.ok sheet))
    (flat : (Parser.parse (SourceUnit.cleanText path source)).sheet.nodes.filterMap
      ImportRule.ofNode? = []) :
    ∃ unit, SourceUnit.ofFile path source = .ok unit ∧ sheet = .ofUnit unit := by
  obtain ⟨unit, linked, parsed, imported, rfl⟩ := links.exists_linked
  have noImports : unit.imports = [] := by
    rw [(SourceUnit.ofFile_eq parsed).2]
    exact flat
  rw [noImports] at imported
  obtain rfl := Except.ok.inj (imported.unique (.nil unit 0 [path]))
  exact ⟨unit, parsed, rfl⟩

namespace Bundle

/-- The bundle of a unit without local imports is the unit's text. -/
theorem css_ofSheet_ofUnit (root : Path) (unit : SourceUnit) :
    (ofSheet root (.ofUnit unit)).css = unit.text := by
  have whole := Span.slice_append [] unit.text []
  have added : ofSheet root (.ofUnit unit) =
      empty.copy root unit (LinkedSheet.tailOf unit 0) := rfl
  rw [added, copy_eq]
  simpa [LinkedSheet.tailOf, empty] using whole

/-- The map of a file without local imports leads from each node to its place in
the file. -/
theorem originalPosition?_toSourceMap_ofUnit
    {path : Path}
    {source name : Text}
    {unit : SourceUnit}
    (parsed : SourceUnit.ofFile path source = .ok unit)
    (named : path.fileName? = some name)
    (small : source.byteSize < UInt32.size)
    {offset : Nat}
    (isStart : offset ∈ unit.starts) :
    ∃ place,
      unit.text.IsPlace offset place ∧
        source.IsPlace offset place ∧
        place.line.toNat + 1 < UInt32.size ∧
        place.column.toNat + 1 < UInt32.size ∧
        ((ofSheet (Native.rootOf path) (.ofUnit unit)).toSourceMap path).originalPosition?
            place.toGenerated =
          some { source := some name, line := place.line + 1, column := place.column } := by
  let root := Native.rootOf path
  let placement : Placement := ⟨unit, LinkedSheet.tailOf unit 0, 0⟩
  have sound := SourceUnit.sound_of_ofFile parsed
  have size : unit.text.byteSize = source.byteSize := by
    rw [SourceUnit.text_of_ofFile parsed, SourceUnit.byteSize_cleanText]
  have early : offset < unit.text.byteSize := (sound.ascend.solid offset isStart).lt_byteSize
  have cut : ∀ other ∈ [placement], other.Cut := by
    intro other among
    rw [List.mem_singleton.mp among]
    exact ⟨sound, Text.Boundary.zero _, Text.Boundary.size _, Nat.zero_le _⟩
  have grows : Grows root empty (ofSheet root (.ofUnit unit)) [placement] :=
    grows_addSheet root empty (.ofUnit unit)
  have css : (ofSheet root (.ofUnit unit)).css = unit.text := css_ofSheet_ofUnit root unit
  have smallCss : (ofSheet root (.ofUnit unit)).css.byteSize < UInt32.size := by
    rw [css]
    omega
  obtain ⟨place, original, isPlace, isOriginal, leads⟩ :=
    grows.originalPosition?_toSourceMap cut smallCss path List.mem_cons_self isStart
      ⟨rfl, Nat.zero_le _, early⟩ (by omega)
  have target : placement.target offset = offset := by
    simp [Placement.target, placement, LinkedSheet.tailOf]
  rw [css, target] at isPlace
  obtain rfl := isPlace.unique isOriginal
  have words := isPlace.lt_size (by omega)
  refine ⟨place, isPlace, SourceUnit.isPlace_of_ofFile parsed isStart isPlace, words.1,
    words.2, ?_⟩
  have stripped : unit.path.stripBase? root = some ⟨name⟩ := by
    rw [SourceUnit.path_of_ofFile parsed]
    exact Path.stripBase?_parent named
  have isName : sourceName root placement.unit.path = name := by
    unfold sourceName
    simp only [placement, stripped]
  rw [leads, isName]

end Bundle

/-! ## Generated maps -/

/-- What is found for a token among rules of a text: the place of the last rule
that is the token by itself, and nothing if there is none. -/
structure FindsLastRule
    (source name : Text)
    (rules : List (Text × Nat))
    (token : Text)
    (found : Option OriginalPosition) : Prop where
  last : ∀ before rule after,
    rules = before ++ rule :: after →
      ClassPosition.selectorName rule.1 = token →
      (∀ other ∈ after, ClassPosition.selectorName other.1 ≠ token) →
      ∃ place, source.IsPlace rule.2 place ∧
        found = some { source := some name, line := place.line + 1, column := place.column }
  none : (∀ rule ∈ rules, ClassPosition.selectorName rule.1 ≠ token) → found = none

namespace NamedClass

section Positions

variable
  {path : Path}
  {source name : Text}
  {unit : SourceUnit}
  {map : SourceMap}
  (parsed : SourceUnit.ofFile path source = .ok unit)
  (named : path.fileName? = some name)
  (small : source.byteSize < UInt32.size)
  (answers : ∀ generated, map.originalPosition? generated =
    ((Bundle.ofSheet (Native.rootOf path) (.ofUnit unit)).toSourceMap
      path).originalPosition? generated)

include parsed named small answers in
/-- The map leads from where a rule begins to its place in the style sheet. -/
theorem exists_place_of_mem_rules
    {rule : Text × Nat}
    (present : rule ∈ (Parser.parse unit.text).sheet.rules) :
    ∃ place, source.IsPlace rule.2 place ∧
      place.line.toNat + 1 < UInt32.size ∧
      place.column.toNat + 1 < UInt32.size ∧
      ClassPosition.ofOffset? unit.text map rule.2 =
        some { source := some name, line := place.line + 1, column := place.column } := by
  obtain ⟨node, isNode, starts⟩ := Stylesheet.exists_node_of_mem_rules present
  have isStart : rule.2 ∈ unit.starts :=
    (SourceUnit.sound_of_ofFile parsed).mem_starts_iff.mpr ⟨node, isNode, starts⟩
  obtain ⟨place, isPlace, isOriginal, line, column, leads⟩ :=
    Bundle.originalPosition?_toSourceMap_ofUnit parsed named small isStart
  refine ⟨place, isOriginal, line, column, ?_⟩
  unfold ClassPosition.ofOffset?
  rw [LineIndex.lineColumnUtf16?_of_isPlace isPlace]
  exact (answers _).trans leads

include parsed named small answers in
/-- The position of a token is a place of the style sheet as it was written. -/
theorem findsLastRule_ofToken (format : NameFormat) (token : Text) :
    FindsLastRule source name (Parser.parse unit.text).sheet.rules token
      (ofToken (Parser.parse unit.text).sheet unit.text map format token).position where
  last := by
    intro before rule after split isLast others
    have present : rule ∈ (Parser.parse unit.text).sheet.rules := by
      rw [split]
      exact List.mem_append_right _ List.mem_cons_self
    obtain ⟨place, isPlace, -, -, leads⟩ :=
      exists_place_of_mem_rules parsed named small answers present
    refine ⟨place, isPlace, ?_⟩
    unfold ofToken
    rw [split, ClassPosition.lastRule?_append isLast others]
    exact leads
  none := by
    intro others
    unfold ofToken
    rw [ClassPosition.lastRule?_eq_none others]
    rfl

include parsed named small answers in
/-- The position of a token names the style sheet and can be mapped. -/
theorem mappable_ofToken
    {format : NameFormat}
    {token : Text}
    {position : OriginalPosition}
    (known : (ofToken (Parser.parse unit.text).sheet unit.text map format token).position =
      some position) :
    position.source = some name ∧ position.line ≠ 0 ∧
      position.column ≠ SourceMap.absent := by
  obtain ⟨start, last, found⟩ := Option.bind_eq_some_iff.mp known
  obtain ⟨rule, isLast, rfl⟩ := Option.map_eq_some_iff.mp last
  have present := (List.mem_filter.mp (List.mem_of_getLast? isLast)).1
  obtain ⟨place, -, line, column, leads⟩ :=
    exists_place_of_mem_rules parsed named small answers present
  obtain rfl := Option.some.inj (leads.symm.trans found)
  exact ⟨rfl, SourceMap.succ_ne_zero_of_lt line, SourceMap.ne_absent_of_lt column⟩

include parsed named small answers in
/-- The map of a declaration leads from a line to the position of its token. -/
theorem originalPosition?_eq_position
    {format : NameFormat}
    {tokens : List Text}
    {declaration : Declaration}
    (lined : declaration.Lined
      (tokens.map (ofToken (Parser.parse unit.text).sheet unit.text map format)))
    (few : tokens.length + 1 < UInt32.size)
    (declarationFile stylesheetFile : Text)
    {line : DeclarationLine}
    (present : line ∈ declaration.lines)
    {token : Text}
    (isToken : tokens[line.index]? = some token) :
    (declaration.toSourceMap
        (tokens.map (ofToken (Parser.parse unit.text).sheet unit.text map format))
        declarationFile stylesheetFile).originalPosition? line.generated =
      (ofToken (Parser.parse unit.text).sheet unit.text map format token).position := by
  let item := ofToken (Parser.parse unit.text).sheet unit.text map format
  have found : (tokens.map item)[line.index]? = some (item token) := by
    rw [List.getElem?_map, isToken, Option.map_some]
  have fewItems : (tokens.map item).length + 1 < UInt32.size := by
    rw [List.length_map]
    exact few
  have words := lined.hasWords fewItems
  cases known : (item token).position with
  | none =>
      exact lined.originalPosition?_toSourceMap_eq_none words declarationFile
        stylesheetFile present found known
  | some position =>
      obtain ⟨isSource, originalLine, originalColumn⟩ :=
        mappable_ofToken parsed named small answers known
      rw [lined.originalPosition?_toSourceMap words declarationFile stylesheetFile present
        found known originalLine originalColumn, isSource, Option.getD_some, ← isSource]

end Positions

end NamedClass

namespace Generator

theorem compile_native
    {compiler : Compiler}
    (native : compiler.kind = .native)
    (options : CompileOptions)
    (source : Text) :
    compiler.compile options source = Native.compile options source := by
  unfold Compiler.compile Compiler.commandFor?
  rw [native]
  exact if_neg nofun

/-- What is generated from a style sheet that is compiled natively. -/
theorem run_generate
    {world : World}
    {generator : Generator}
    {file : Path}
    {source : Text}
    {output : CompileOutput}
    {classes : List NamedClass}
    (native : generator.compiler.kind = .native)
    (content : world.files.read world.cwd file = .ok source)
    (compiled : (Native.compile (generator.compileOptions file) source).run world =
      (.ok output, world))
    (classified : NamedClass.ofCompiled output.css output.map generator.options.nameFormat =
      .ok classes) :
    (generator.generate file).run world =
      (.ok (Artifacts.ofClasses? generator.options file classes), world) := by
  have ran : (generator.classesOf file).run world = (.ok classes, world) := by
    unfold classesOf
    rw [Action.run_bind, LinkedSheet.run_readText, content]
    simp only
    rw [compile_native native, Action.run_bind, compiled, Action.run_done, nameClasses,
      classified]
    rfl
  unfold generate
  rw [Action.run_bind, ran]
  rfl

/-- The map of a generated declaration leads from the name on each rendered line
to the last rule that is the line's class by itself, at its place in the style
sheet as it was written, and nowhere if there is no such rule. -/
theorem generate_leads_to_last_rules
    {world after : World}
    {generator : Generator}
    {file : Path}
    {name source : Text}
    {output : CompileOutput}
    (native : generator.compiler.kind = .native)
    (named : file.fileName? = some name)
    (content : world.files.read world.cwd file = .ok source)
    (small : source.byteSize < UInt32.size)
    (compiled : (generator.compiler.compile (generator.compileOptions file) source).run
      world = (.ok output, after))
    (flat : (Parser.parse (SourceUnit.cleanText file source)).sheet.nodes.filterMap
      ImportRule.ofNode? = []) :
    ∃ classes artifacts?,
      (generator.generate file).run world = (.ok artifacts?, world) ∧
        classes.map NamedClass.name =
          (Parser.parse (SourceUnit.cleanText file source)).sheet.exported.map
            generator.options.nameFormat.apply ∧
        (artifacts? = none ↔
          (Parser.parse (SourceUnit.cleanText file source)).sheet.exported = []) ∧
        ∀ artifacts, artifacts? = some artifacts →
          ∃ declaration map,
            Declaration.render? classes generator.options.exportType = some declaration ∧
              SourceMap.ofJson artifacts.map = .ok map ∧
              ∀ line ∈ declaration.lines,
                line.generated.line.toNat = line.line ∧
                  line.generated.column.toNat = line.column ∧
                  ∃ token,
                    (Parser.parse (SourceUnit.cleanText file source)).sheet.exported[
                        line.index]? = some token ∧
                      FindsLastRule source name
                        (Parser.parse (SourceUnit.cleanText file source)).sheet.rules token
                        (map.originalPosition? line.generated) := by
  rw [compile_native native] at compiled
  obtain ⟨sheet, links, rfl, rfl⟩ := Native.exists_sheet_of_compile compiled
  obtain ⟨unit, parsed, rfl⟩ := links.eq_ofUnit flat
  let options := generator.compileOptions file
  let bundle := Bundle.ofSheet (Native.rootOf file) (.ofUnit unit)
  have isText : unit.text = SourceUnit.cleanText file source := SourceUnit.text_of_ofFile parsed
  have css : (Native.outputOf options (.ofUnit unit)).css = unit.text :=
    Bundle.css_ofSheet_ofUnit _ unit
  have written : (Native.outputOf options (.ofUnit unit)).map =
      some (bundle.toSourceMap file).toJson := rfl
  obtain ⟨map, decoded, answers, -⟩ := bundle.exists_decoded file
  have faultless : (Parser.parse unit.text).faults = [] := by
    rw [isText]
    exact (SourceUnit.ofFile_eq parsed).1
  rw [← isText]
  let tokens := (Parser.parse unit.text).sheet.exported
  let item := NamedClass.ofToken (Parser.parse unit.text).sheet unit.text map
    generator.options.nameFormat
  have classified : NamedClass.ofCompiled (Native.outputOf options (.ofUnit unit)).css
      (Native.outputOf options (.ofUnit unit)).map generator.options.nameFormat =
        .ok (tokens.map item) := by
    rw [css, written]
    exact NamedClass.ofCompiled_eq faultless decoded _
  have few : tokens.length + 1 < UInt32.size := by
    apply Parser.length_exported_lt
    rw [isText, SourceUnit.byteSize_cleanText]
    exact small
  have fewItems : (tokens.map item).length + 1 < UInt32.size := by
    rw [List.length_map]
    exact few
  have ran := run_generate native content compiled classified
  refine ⟨tokens.map item, _, ran, List.map_map, ?_, fun artifacts made => ?_⟩
  · rw [Artifacts.ofClasses?, Option.map_eq_none_iff, Declaration.render?_eq_none_iff,
      List.map_eq_nil_iff]
  obtain ⟨declaration, rendered, rfl⟩ := Option.map_eq_some_iff.mp made
  have lined := Declaration.lined_of_render? rendered
  obtain ⟨declarationMap, read, leads⟩ := declaration.exists_decoded (tokens.map item)
    (Artifacts.declarationPath file).shortName file.shortName
  refine ⟨declaration, declarationMap, rendered, read, fun line present => ?_⟩
  have inside : line.index < tokens.length := by
    have index := lined.index_lt line present
    rwa [List.length_map] at index
  have isToken := List.getElem?_eq_getElem inside
  refine ⟨lined.toNat_line fewItems present, lined.toNat_column present, tokens[line.index],
    isToken, ?_⟩
  have position := NamedClass.originalPosition?_eq_position parsed named small answers lined
    few (Artifacts.declarationPath file).shortName file.shortName present isToken
  have found := NamedClass.findsLastRule_ofToken parsed named small answers
    generator.options.nameFormat tokens[line.index]
  rw [leads]
  exact position ▸ found

/-- A style sheet with a line comment that is not ASCII. -/
def commented : Text :=
  "// é\n.a {}\n"

/-- A world with that style sheet. -/
def commentedWorld : World :=
  .ofFiles ⟨[(["a.less".toList], .file (.text commented) false)]⟩ [] (fun _ => .failed [])

/-- A generator that compiles natively. -/
def nativeGenerator : Generator :=
  ⟨.standard, .native⟩

/-- The unit of that style sheet. -/
def commentedUnit : SourceUnit :=
  { path := "a.less"
    text := "     \n.a {}\n"
    starts := [6]
    imports := [] }

theorem generate_leads_to_last_rules_commented :
    nativeGenerator.compiler.kind = .native ∧
      Path.fileName? "a.less" = some "a.less".toList ∧
      commentedWorld.files.read commentedWorld.cwd "a.less" = .ok commented ∧
      commented.byteSize < UInt32.size ∧
      (nativeGenerator.compiler.compile (nativeGenerator.compileOptions "a.less")
          commented).run commentedWorld =
        (.ok (Native.outputOf (nativeGenerator.compileOptions "a.less")
          (.ofUnit commentedUnit)), commentedWorld) ∧
      (Parser.parse (SourceUnit.cleanText "a.less" commented)).sheet.nodes.filterMap
        ImportRule.ofNode? = [] ∧
      ∃ artifacts map,
        (nativeGenerator.generate "a.less").run commentedWorld =
            (.ok (some artifacts), commentedWorld) ∧
          SourceMap.ofJson artifacts.map = .ok map := by
  have parsed : SourceUnit.ofFile "a.less" commented = .ok commentedUnit :=
    Native.ok_of_toOption (by decide +kernel)
  obtain ⟨outcome, links, ran⟩ := Native.run_compile commentedWorld
    (nativeGenerator.compileOptions "a.less") commented
  obtain rfl := links.unique (.parsed parsed (.nil commentedUnit 0 _))
  have compiled : (nativeGenerator.compiler.compile
      (nativeGenerator.compileOptions "a.less") commented).run commentedWorld =
        (.ok (Native.outputOf (nativeGenerator.compileOptions "a.less")
          (.ofUnit commentedUnit)), commentedWorld) := ran
  have content : commentedWorld.files.read commentedWorld.cwd "a.less" = .ok commented := rfl
  have named : Path.fileName? "a.less" = some "a.less".toList := by decide +kernel
  have small : commented.byteSize < UInt32.size := by decide +kernel
  have flat : (Parser.parse (SourceUnit.cleanText "a.less" commented)).sheet.nodes.filterMap
      ImportRule.ofNode? = [] := by decide +kernel
  have exports : (Parser.parse (SourceUnit.cleanText "a.less" commented)).sheet.exported ≠
      [] := by decide +kernel
  obtain ⟨classes, artifacts?, generated, -, nothing, maps⟩ :=
    generate_leads_to_last_rules rfl named content small compiled flat
  obtain ⟨artifacts, rfl⟩ :=
    Option.ne_none_iff_exists'.mp fun isNone => exports (nothing.mp isNone)
  obtain ⟨declaration, map, -, decoded, -⟩ := maps artifacts rfl
  exact ⟨rfl, named, content, small, compiled, flat, artifacts, map, generated, decoded⟩

end Generator
end StyleTypings
