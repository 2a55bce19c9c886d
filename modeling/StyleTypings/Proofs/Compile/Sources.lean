import StyleTypings.Proofs.Compile.Tracing
import StyleTypings.Proofs.Files.Anchoring

/-!
# Names of sources

A source map names the files of a bundle. From the directory of the entry the name of a file
leads back to the file if its path is absolute or goes on from that directory as the path of the
entry spells it, and then no other file of the bundle has the name. Imports stay within such
paths as long as the include paths do, except that a module is also looked for above the
directory of the entry. Any other path is its own name, so the name leads to the file only if
the path happens to mean the same file from both directories.
-/

namespace StyleTypings

namespace SourceUnit

variable {world : World} {unit : SourceUnit} {root : Path}

/-- From a directory the name of a unit leads to the unit's file. -/
def IsLedBack (world : World) (root : Path) (unit : SourceUnit) : Prop :=
  world.files.resolve world.cwd (root.join ⟨Bundle.sourceName root unit.path⟩) =
    .ok (unit.placeIn world)

instance (world : World) (root : Path) (unit : SourceUnit) :
    Decidable (unit.IsLedBack world root) :=
  inferInstanceAs (Decidable (_ = _))

/-- At the place of a unit stands a file. -/
theorem StandsIn.notDirectory (stands : unit.StandsIn world) :
    world.files.find? (unit.placeIn world) ≠ some .directory := by
  obtain ⟨source, content, -⟩ := stands
  obtain ⟨-, executable, found⟩ := FileSystem.read_eq content
  rw [placeIn, found]
  exact nofun

theorem StandsIn.isIdle_lastPart (stands : unit.StandsIn world) :
    Path.isIdle unit.path.lastPart = false :=
  Path.isIdle_lastPart_of_resolve stands.resolve_eq stands.notDirectory

/-- A unit does not stand at the place of a directory. -/
theorem StandsIn.components_ne
    (stands : unit.StandsIn world)
    (isDirectory : world.files.find? (.ofPath world.cwd root) = some .directory) :
    unit.path.components ≠ root.components := by
  intro same
  refine stands.notDirectory ?_
  rwa [placeIn, Place.ofPath_eq_components, same, ← Place.ofPath_eq_components]

/-- From any directory a relative path leads on by its parts. -/
theorem StandsIn.resolve_of_relative
    (stands : unit.StandsIn world)
    (relative : unit.path.isAbsolute = false)
    (place : Place) :
    world.files.resolve place unit.path =
      world.files.follow place (Text.splitAt '/' unit.path.text) := by
  have named : unit.path.text ≠ [] := fun empty => by
    have solid := stands.isIdle_lastPart
    rw [Path.lastPart, empty] at solid
    exact absurd solid (by decide)
  have short := FileSystem.isAdmissible_of_resolve stands.resolve_eq
  unfold FileSystem.resolve
  rw [if_neg (by simp [named]), if_neg (by simp [short]), relative]
  rfl

/-- The name of a unit leads back just if its path is anchored, or leads to the same file from
both directories. -/
theorem StandsIn.isLedBack_iff
    (stands : unit.StandsIn world)
    (followed : world.files.follow (.origin world.cwd root)
      ((Text.splitAt '/' root.text).filter Path.isSolid) = .ok (.ofPath world.cwd root))
    (isDirectory : world.files.find? (.ofPath world.cwd root) = some .directory) :
    unit.IsLedBack world root ↔
      (root.join ⟨Bundle.sourceName root unit.path⟩).isAdmissible = true ∧
        (unit.path.IsAnchored root ∨
          world.files.resolve (.ofPath world.cwd root) unit.path =
            .ok (unit.placeIn world)) := by
  have leads := stands.resolve_eq
  have short {path : Path} (led : world.files.resolve world.cwd path = .ok (unit.placeIn world)) :
      path.isAdmissible = true := FileSystem.isAdmissible_of_resolve led
  unfold IsLedBack Bundle.sourceName
  cases strips : unit.path.stripBase? root with
  | some rest =>
      have begins := Path.isSome_stripBase?_iff.mp (Option.isSome_of_eq_some strips)
      refine ⟨fun led => ⟨short led, .inl (.inr begins)⟩, fun ⟨admissible, _⟩ => ?_⟩
      exact FileSystem.resolve_join_of_stripBase? leads stands.notDirectory isDirectory strips
        admissible
  | none =>
      have other := Path.stripBase?_eq_none_iff.mp strips
      cases form : unit.path.isAbsolute with
      | true =>
          have joined : root.join unit.path = unit.path := if_pos form
          simp only [joined]
          exact ⟨fun _ => ⟨short leads, .inl (.inl form)⟩, fun _ => leads⟩
      | false =>
          have nonempty : root.text ≠ [] := fun empty => other (by
            rw [Path.components_nil empty]
            exact List.nil_prefix)
          have loose : ¬ unit.path.IsAnchored root :=
            not_or.mpr ⟨by simp [form], other⟩
          rw [or_iff_right loose, stands.resolve_of_relative form]
          constructor
          · intro led
            have admissible := short led
            rw [FileSystem.resolve_join_of_relative followed isDirectory nonempty form
              admissible] at led
            exact ⟨admissible, led⟩
          · rintro ⟨admissible, led⟩
            rwa [FileSystem.resolve_join_of_relative followed isDirectory nonempty form admissible]

end SourceUnit

/-! ## Paths that imports lead to -/

namespace ImportSpecifier

/-- Whether a specifier means a module once it is rewritten. -/
def isModule (aliases : Aliases) (specifier : Text) : Bool :=
  ((aliases.resolve? specifier).getD specifier).head? == some '~'

/-- A file that may be meant is a path as it is or with an ending. -/
theorem exists_suffix_of_mem_withExtensions
    {path candidate : Path}
    (among : candidate ∈ withExtensions path) :
    ∃ suffix : Text, suffix.head? ≠ some '/' ∧ candidate = path.append suffix := by
  have plain : path = path.append [] := by simp [Path.append]
  unfold withExtensions at among
  split at among
  · exact ⟨[], by decide, (List.mem_singleton.mp among).trans plain⟩
  · simp only [List.mem_cons, List.not_mem_nil, or_false] at among
    rcases among with rfl | rfl | rfl
    · exact ⟨".less", by decide, rfl⟩
    · exact ⟨".css", by decide, rfl⟩
    · exact ⟨[], by decide, plain⟩

/-- What is imported from an anchored directory is anchored, if the include paths are and if no
module is looked for above a relative directory. -/
theorem isAnchored_of_mem_candidates
    {options : ImportOptions}
    {importer candidate root : Path}
    {specifier : Text}
    (anchored : (importer.parent?.getD ⟨[]⟩).IsAnchored root)
    (included : ∀ directory ∈ options.includePaths, directory.IsAnchored root)
    (above : isModule options.aliases specifier = true →
      (importer.parent?.getD ⟨[]⟩).isAbsolute = true)
    (among : candidate ∈ candidates options importer specifier) :
    candidate.IsAnchored root := by
  unfold candidates at among
  obtain ⟨path, isPath, extended⟩ := List.mem_flatMap.mp among
  obtain ⟨suffix, plain, rfl⟩ := exists_suffix_of_mem_withExtensions extended
  unfold isModule at above
  unfold paths at isPath
  split at isPath
  · next module rewritten =>
      obtain ⟨directory, isAbove, rfl⟩ := List.mem_map.mp isPath
      have absolute := Path.isAbsolute_of_mem_ancestors (above (by rw [rewritten]; rfl)) isAbove
      rw [Path.append_join plain]
      exact .inl (Path.isAbsolute_join (Path.isAbsolute_join absolute _) _)
  · simp only at isPath
    split at isPath
    · next absolute =>
        obtain rfl := List.mem_singleton.mp isPath
        exact .inl (Path.isAbsolute_append absolute suffix)
    · rcases List.mem_cons.mp isPath with rfl | isIncluded
      · rw [Path.append_join plain]
        exact anchored.join _
      · obtain ⟨directory, isDirectory, rfl⟩ := List.mem_map.mp isIncluded
        rw [Path.append_join plain]
        exact (included directory isDirectory).join _

end ImportSpecifier

namespace LinkedSheet

variable {world : World} {root : Path}

/-- No unit with a relative path imports a module. -/
def KeepsModulesAbsolute (aliases : Aliases) (units : List SourceUnit) : Prop :=
  ∀ unit ∈ units, unit.path.isAbsolute = false →
    ∀ rule ∈ unit.imports, ImportSpecifier.isModule aliases rule.specifier = false

theorem KeepsModulesAbsolute.mono
    {aliases : Aliases}
    {units more : List SourceUnit}
    (keeps : KeepsModulesAbsolute aliases more)
    (among : units ⊆ more) :
    KeepsModulesAbsolute aliases units :=
  fun unit isUnit => keeps unit (among isUnit)

/-- What a unit with an anchored path imports is anchored. -/
theorem isAnchored_of_target?
    {options : ImportOptions}
    {unit : SourceUnit}
    {rule : ImportRule}
    {target : Path}
    (stands : unit.StandsIn world)
    (isDirectory : world.files.find? (.ofPath world.cwd root) = some .directory)
    (included : ∀ directory ∈ options.includePaths, directory.IsAnchored root)
    (anchored : unit.path.IsAnchored root)
    (modules : root.isAbsolute = true ∨ KeepsModulesAbsolute options.aliases [unit])
    (among : rule ∈ unit.imports)
    (found : target? world options unit rule = some target) :
    target.IsAnchored root := by
  have solid := stands.isIdle_lastPart
  refine ImportSpecifier.isAnchored_of_mem_candidates
    (anchored.parent solid (stands.components_ne isDirectory)) included (fun isModule => ?_)
    (List.mem_of_find?_eq_some found)
  rw [Path.isAbsolute_parent solid]
  rcases modules with absolute | keeps
  · exact anchored.isAbsolute absolute
  · by_contra relative
    have plain := keeps unit (List.mem_singleton_self unit) (by simpa using relative) rule among
    exact absurd (plain.symm.trans isModule) nofun

/-- All units that imports enter are anchored. -/
theorem Links.isAnchored
    {options : ImportOptions}
    {unit : SourceUnit}
    {rules : List ImportRule}
    {cursor : Nat}
    {seen : List Path}
    {linked : Linked}
    (links : Links world options unit rules cursor seen (.ok linked))
    (isDirectory : world.files.find? (.ofPath world.cwd root) = some .directory)
    (included : ∀ directory ∈ options.includePaths, directory.IsAnchored root)
    (modules : root.isAbsolute = true ∨
      KeepsModulesAbsolute options.aliases (unit :: unitsOfPieces linked.pieces))
    (stands : unit.StandsIn world)
    (anchored : unit.path.IsAnchored root)
    (own : rules ⊆ unit.imports) :
    ∀ entered ∈ unitsOfPieces linked.pieces, entered.path.IsAnchored root := by
  induction links using Links.inductionOk with
  | nil unit cursor seen => exact nofun
  | again _ _ _ inductionHypothesis =>
      exact inductionHypothesis modules stands anchored fun rule behind =>
        own (List.mem_cons_of_mem _ behind)
  | @fresh unit imported _ _ _ _ _ source inner linked found _ content parsed _ _
      withinHypothesis othersHypothesis =>
      rw [unitsOfPieces_fresh] at modules ⊢
      have mono {units : List SourceUnit}
          (among : units ⊆ unit :: imported ::
            (unitsOfPieces inner.pieces ++ unitsOfPieces linked.pieces)) :
          root.isAbsolute = true ∨ KeepsModulesAbsolute options.aliases units :=
        modules.imp_right fun keeps => keeps.mono among
      have named := SourceUnit.path_of_ofFile parsed
      have importedStands : imported.StandsIn world :=
        ⟨source, by rw [named]; exact content, by rw [named]; exact parsed⟩
      have importedAnchored : imported.path.IsAnchored root := by
        rw [named]
        exact isAnchored_of_target? stands isDirectory included anchored (mono (by simp))
          (own List.mem_cons_self) found
      have deeper : imported :: unitsOfPieces inner.pieces ⊆
          unit :: imported :: (unitsOfPieces inner.pieces ++ unitsOfPieces linked.pieces) :=
        List.subset_cons_of_subset _ (List.cons_subset_cons _ (List.subset_append_left _ _))
      have behind : unit :: unitsOfPieces linked.pieces ⊆
          unit :: imported :: (unitsOfPieces inner.pieces ++ unitsOfPieces linked.pieces) :=
        List.cons_subset_cons _ (List.subset_cons_of_subset _ (List.subset_append_right _ _))
      have within := withinHypothesis (mono deeper) importedStands importedAnchored
        (List.Subset.refl _)
      have others := othersHypothesis (mono behind) stands anchored fun rule later =>
        own (List.mem_cons_of_mem _ later)
      intro entered among
      rcases List.mem_cons.mp among with rfl | later
      · exact importedAnchored
      · exact (List.mem_append.mp later).elim (within entered) (others entered)

/-- No two units of a linked file have one name, unless a whole path is what is left of another
one. -/
theorem LinksFile.nodup_sourceName_iff
    {options : ImportOptions}
    {path : Path}
    {source : Text}
    {sheet : LinkedSheet}
    (links : LinksFile world options path source (.ok sheet))
    (root : Path) :
    (sheet.units.map fun unit => Bundle.sourceName root unit.path).Nodup ↔
      ∀ left ∈ sheet.units, ∀ right ∈ sheet.units,
        right.path.stripBase? root = none → left.path.stripBase? root ≠ some right.path := by
  have once := links.nodup_components
  have single : sheet.units.Nodup := List.Nodup.of_map _ once
  rw [List.nodup_map_iff_inj_on single]
  constructor
  · intro distinct left isLeft right isRight whole strips
    have same : left = right := distinct left isLeft right isRight (by
      simp [Bundle.sourceName, whole, strips])
    rw [same, whole] at strips
    exact absurd strips nofun
  · intro apart left isLeft right isRight same
    have alike (spelled : left.path.components = right.path.components) : left = right :=
      List.inj_on_of_nodup_map once isLeft isRight spelled
    unfold Bundle.sourceName at same
    cases stripsLeft : left.path.stripBase? root with
    | some leftRest =>
        cases stripsRight : right.path.stripBase? root with
        | some rightRest =>
            rw [stripsLeft, stripsRight] at same
            have rests : leftRest = rightRest := congrArg Path.mk same
            refine alike ?_
            rw [← Path.components_join_stripBase? stripsLeft,
              ← Path.components_join_stripBase? stripsRight, rests]
        | none =>
            rw [stripsLeft, stripsRight] at same
            have rests : leftRest = right.path := congrArg Path.mk same
            exact absurd (stripsLeft.trans (congrArg some rests))
              (apart left isLeft right isRight stripsRight)
    | none =>
        cases stripsRight : right.path.stripBase? root with
        | some rightRest =>
            rw [stripsLeft, stripsRight] at same
            have rests : rightRest = left.path := (congrArg Path.mk same).symm
            exact absurd (stripsRight.trans (congrArg some rests))
              (apart right isRight left isLeft stripsLeft)
        | none =>
            rw [stripsLeft, stripsRight] at same
            exact alike (congrArg Path.components (congrArg Path.mk same))

/-- Units with anchored paths have names of their own. -/
theorem LinksFile.nodup_sourceName
    {options : ImportOptions}
    {path : Path}
    {source : Text}
    {sheet : LinkedSheet}
    (links : LinksFile world options path source (.ok sheet))
    (anchored : ∀ unit ∈ sheet.units, unit.path.IsAnchored root) :
    (sheet.units.map fun unit => Bundle.sourceName root unit.path).Nodup := by
  refine (links.nodup_sourceName_iff root).mpr fun left _ right isRight whole strips => ?_
  have other := Path.stripBase?_eq_none_iff.mp whole
  have some : root.components ≠ [] := fun none => other (none ▸ List.nil_prefix)
  have relative := Path.isAbsolute_of_stripBase? some strips
  exact absurd (((anchored right isRight).resolve_right other).symm.trans relative) nofun

end LinkedSheet

namespace Bundle

/-- The beginnings that a bundle lists come from units of its sheet. -/
theorem exists_unit_of_mem_copied
    {root : Path}
    {sheet : LinkedSheet}
    {start : CopiedStart}
    (listed : start ∈ (ofSheet root sheet).copied) :
    ∃ unit ∈ sheet.units, start.source = sourceName root unit.path := by
  have grown := (grows_addSheet root .empty sheet).copied
  rw [empty, List.nil_append] at grown
  rw [ofSheet, empty, grown] at listed
  obtain ⟨placement, isPlaced, isStart⟩ := List.mem_flatMap.mp listed
  refine ⟨placement.unit, LinkedSheet.unit_mem_of_placements root _ sheet placement isPlaced, ?_⟩
  obtain ⟨offset, -, copied⟩ := List.mem_filterMap.mp isStart
  obtain ⟨original, -, rfl⟩ := Option.map_eq_some_iff.mp copied
  rfl

/-- The sources of a bundle's map are names of units of its sheet. -/
theorem exists_unit_of_mem_sources
    {root entry : Path}
    {sheet : LinkedSheet}
    {map : SourceMap}
    {name : Text}
    (decoded : SourceMap.ofJson ((ofSheet root sheet).toSourceMap entry).toJson = .ok map)
    (listed : name ∈ map.sources) :
    ∃ unit ∈ sheet.units, name = sourceName root unit.path := by
  rw [toSourceMap, (SourceMap.plain_build _ _).ofJson_toJson] at decoded
  obtain rfl := Except.ok.inj decoded
  obtain ⟨entry, among, named⟩ := List.mem_filterMap.mp (List.mem_eraseDups.mp listed)
  obtain ⟨start, isStart, mapped⟩ := List.mem_filterMap.mp (List.mem_filter.mp among).1
  obtain ⟨generated, -, rfl⟩ := Option.map_eq_some_iff.mp mapped
  obtain rfl : start.source = name := Option.some.inj named
  exact exists_unit_of_mem_copied isStart

end Bundle

namespace Native

open LinkedSheet

/-- All sources of a compiled text are named after its units. The name of a unit leads back from
the directory of the entry just if the unit's path is anchored or means the same file from there,
and two units share a name just if the path of one is what is left of the path of the other.
Neither happens with anchored include paths, unless a relative path imports a module. -/
theorem sources_lead_back_iff
    {world after : World}
    {options : CompileOptions}
    {source : Text}
    {output : CompileOutput}
    (entry : world.files.read world.cwd options.filename = .ok source)
    (compiled : (compile options source).run world = (.ok output, after)) :
    let root := rootOf options.filename
    ∃ sheet, LinksFile world options.imports options.filename source (.ok sheet) ∧
      output = outputOf options sheet ∧
      (∀ json map, output.map = some json → SourceMap.ofJson json = .ok map →
        ∀ name ∈ map.sources, ∃ unit ∈ sheet.units,
          name = Bundle.sourceName root unit.path) ∧
      (∀ unit ∈ sheet.units, unit.IsLedBack world root ↔
        (root.join ⟨Bundle.sourceName root unit.path⟩).isAdmissible = true ∧
          (unit.path.IsAnchored root ∨
            world.files.resolve (.ofPath world.cwd root) unit.path =
              .ok (unit.placeIn world))) ∧
      ((sheet.units.map fun unit => Bundle.sourceName root unit.path).Nodup ↔
        ∀ left ∈ sheet.units, ∀ right ∈ sheet.units,
          right.path.stripBase? root = none → left.path.stripBase? root ≠ some right.path) ∧
      ((∀ unit ∈ sheet.units, unit.path.IsAnchored root) →
        (sheet.units.map fun unit => Bundle.sourceName root unit.path).Nodup) ∧
      ((∀ directory ∈ options.imports.includePaths, directory.IsAnchored root) →
        options.filename.isAbsolute = true ∨
            KeepsModulesAbsolute options.imports.aliases sheet.units →
          ∀ unit ∈ sheet.units, unit.path.IsAnchored root) := by
  obtain ⟨sheet, links, rfl, -⟩ := exists_sheet_of_compile compiled
  have stands := links.standsIn entry
  obtain ⟨own, linked, parsed, imported, rfl⟩ := links.exists_linked
  have named := SourceUnit.path_of_ofFile parsed
  have ownStands := stands own List.mem_cons_self
  have solid := ownStands.isIdle_lastPart
  rw [named] at solid
  obtain ⟨followed, isDirectory⟩ := FileSystem.follow_parent (named ▸ ownStands.resolve_eq) solid
    (Eq.refl (rootOf options.filename))
  refine ⟨_, links, rfl, fun json map written decoded name listed => ?_,
    fun unit among => (stands unit among).isLedBack_iff followed isDirectory,
    links.nodup_sourceName_iff _, links.nodup_sourceName, fun included modules => ?_⟩
  · have wanted : options.sourceMap = true := by
      by_contra unwanted
      exact absurd ((if_neg unwanted).symm.trans written) nofun
    obtain rfl := Option.some.inj ((if_pos wanted).symm.trans written)
    exact Bundle.exists_unit_of_mem_sources decoded listed
  · have ownAnchored : own.path.IsAnchored (rootOf options.filename) := by
      refine .inr ?_
      rw [named, rootOf, Path.components_eq_append solid]
      exact List.prefix_append _ _
    have absolute := modules.imp_left fun absolute =>
      (Path.isAbsolute_parent solid).trans absolute
    exact List.forall_mem_cons.mpr ⟨ownAnchored,
      imported.isAnchored isDirectory included absolute ownStands ownAnchored
        (List.Subset.refl _)⟩

/-! ## Two files of one name -/

/-- Two imports, of a file below the style sheet and of one in an include path. -/
def strayed : Text :=
  "@import \"lib/y.css\";\n@import \"y.css\";"

/-- A world with that style sheet and both files. -/
def strayedWorld : World :=
  .ofFiles
    ⟨[(["src".toList], .directory),
      (["src".toList, "main.css".toList], .file (.text strayed) false),
      (["src".toList, "lib".toList], .directory),
      (["src".toList, "lib".toList, "y.css".toList], .file (.text ".a {}\n".toList) false),
      (["lib".toList], .directory),
      (["lib".toList, "y.css".toList], .file (.text ".a {}\n".toList) false)]⟩
    [] (fun _ => .failed [])

/-- The compilation of that style sheet with the include path. -/
def strayedOptions : CompileOptions :=
  ⟨"src/main.css", ⟨.none, ["lib"]⟩, true⟩

/-- The unit of that style sheet. -/
def strayedUnit : SourceUnit :=
  { path := "src/main.css"
    text := strayed
    starts := [0, 21]
    imports := [⟨"lib/y.css", ⟨0, 20⟩⟩, ⟨"y.css", ⟨21, 37⟩⟩] }

/-- The linked style sheet. -/
def strayedSheet : LinkedSheet :=
  .sheet strayedUnit
    [(⟨0, 0⟩, some (importedSheet "src/lib/y.css")), (⟨20, 21⟩, some (importedSheet "lib/y.css"))]
    ⟨37, 37⟩

theorem links_strayed :
    LinksFile strayedWorld strayedOptions.imports "src/main.css" strayed (.ok strayedSheet) := by
  have parsed : SourceUnit.ofFile "src/main.css" strayed = .ok strayedUnit :=
    ok_of_toOption (by decide +kernel)
  have content (path : Path)
      (leads : path = "src/lib/y.css" ∨ path = "lib/y.css") :
      strayedWorld.files.read strayedWorld.cwd path = .ok ".a {}\n".toList ∧
        SourceUnit.ofFile path ".a {}\n".toList = .ok (importedUnit path) := by
    rcases leads with rfl | rfl
    · exact ⟨rfl, ok_of_toOption (by decide +kernel)⟩
    · exact ⟨rfl, ok_of_toOption (by decide +kernel)⟩
  have first : target? strayedWorld strayedOptions.imports strayedUnit
      ⟨"lib/y.css", ⟨0, 20⟩⟩ = some "src/lib/y.css" := by decide +kernel
  have second : target? strayedWorld strayedOptions.imports strayedUnit
      ⟨"y.css", ⟨21, 37⟩⟩ = some "lib/y.css" := by decide +kernel
  have unseen : hasSeen ["src/lib/y.css", "src/main.css"] "lib/y.css" = false := by
    decide +kernel
  have later : Links strayedWorld strayedOptions.imports strayedUnit
      [⟨"y.css", ⟨21, 37⟩⟩] 20 ["src/lib/y.css", "src/main.css"] _ :=
    .fresh second unseen (content _ (.inr rfl)).1 (content _ (.inr rfl)).2 (.nil _ _ _)
      (.nil strayedUnit 37 _)
  exact .parsed parsed <| .fresh first (by decide +kernel) (content _ (.inl rfl)).1
    (content _ (.inl rfl)).2 (.nil _ _ _) later

/-- Both files are named after the one below the style sheet. -/
theorem strayed_shares_name :
    strayedWorld.files.read strayedWorld.cwd strayedOptions.filename = .ok strayed ∧
      (compile strayedOptions strayed).run strayedWorld =
          (.ok (outputOf strayedOptions strayedSheet), strayedWorld) ∧
        (strayedSheet.units.map (·.placeIn strayedWorld)).Nodup ∧
        (strayedSheet.units.map fun unit =>
            Bundle.sourceName (rootOf strayedOptions.filename) unit.path) =
          ["main.css".toList, "lib/y.css".toList, "lib/y.css".toList] ∧
        strayedSheet.units.map
            (fun unit => decide (unit.IsLedBack strayedWorld (rootOf strayedOptions.filename))) =
          [true, true, false] := by
  obtain ⟨outcome, links, ran⟩ := run_compile strayedWorld strayedOptions strayed
  obtain rfl := links.unique links_strayed
  exact ⟨rfl, ran, by decide +kernel, by decide +kernel, by decide +kernel⟩

theorem sources_lead_back_iff_strayed :
    let root := rootOf strayedOptions.filename
    strayedWorld.files.read strayedWorld.cwd strayedOptions.filename = .ok strayed ∧
      (compile strayedOptions strayed).run strayedWorld =
          (.ok (outputOf strayedOptions strayedSheet), strayedWorld) ∧
        ∃ sheet,
          LinksFile strayedWorld strayedOptions.imports strayedOptions.filename strayed
              (.ok sheet) ∧
            ∀ unit ∈ sheet.units, unit.IsLedBack strayedWorld root ↔
              (root.join ⟨Bundle.sourceName root unit.path⟩).isAdmissible = true ∧
                (unit.path.IsAnchored root ∨
                  strayedWorld.files.resolve (.ofPath strayedWorld.cwd root) unit.path =
                    .ok (unit.placeIn strayedWorld)) := by
  obtain ⟨outcome, links, ran⟩ := run_compile strayedWorld strayedOptions strayed
  obtain rfl := links.unique links_strayed
  obtain ⟨sheet, linked, -, -, led, -⟩ := sources_lead_back_iff rfl ran
  exact ⟨rfl, ran, sheet, linked, led⟩

end Native
end StyleTypings
