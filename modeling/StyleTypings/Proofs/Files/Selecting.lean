import StyleTypings.Proofs.Files.Ordering
import StyleTypings.Proofs.Files.Starting

/-!
# Selecting one file and selecting all

The files of a pattern are found by a walk, while a file that has changed is matched by its
absolute path. Outside of the directories of modules the two agree, except that a changed file
is matched in both forms of its path: as the walk writes it, and from the root or from the
working directory on. The walk leaves out the directories of modules; the other way does not.
-/

namespace StyleTypings

namespace Path

/-- Whether a text can be the name of a file. -/
def isName (name : Text) : Bool :=
  !isIdle name && name != ['.', '.'] && !name.contains '/'

theorem isName_iff {name : Text} :
    isName name = true ↔ isIdle name = false ∧ name ≠ ['.', '.'] ∧ '/' ∉ name := by
  simp [isName, and_assoc]

variable {names : List Text}

theorem bare_join_names (areNames : ∀ name ∈ names, isName name = true) :
    Bare (Text.join ['/'] names) := by
  cases names with
  | nil => exact bare_nil
  | cons first rest =>
      obtain ⟨solid, -, simple⟩ := isName_iff.mp (areNames first List.mem_cons_self)
      have bare : Bare first := bare_of_solid (by simp [isSolid, solid]) simple
      cases rest with
      | nil => rwa [Text.join, List.intercalate_singleton]
      | cons second others =>
          rw [Text.join_cons_cons]
          refine bare.append ?_ _
          rintro rfl
          exact absurd solid (by decide)

theorem components_join_names (areNames : ∀ name ∈ names, isName name = true) :
    components ⟨Text.join ['/'] names⟩ = names.map .normal := by
  have solid : names.filter isSolid = names := List.filter_eq_self.mpr fun name among => by
    simp [isSolid, (isName_iff.mp (areNames name among)).1]
  have without : ∀ name ∈ names, '/' ∉ name := fun name among =>
    (isName_iff.mp (areNames name among)).2.2
  rw [components_eq, parts, splitLead_of_bare (bare_join_names areNames),
    filter_splitAt_join without, solid]
  exact List.map_congr_left fun name among => by
    simp [componentOf, (isName_iff.mp (areNames name among)).2.1]

theorem lastPart_of_splitAt
    {path : Path}
    {front : List Text}
    {last : Text}
    (split : Text.splitAt '/' path.text = front ++ [last]) :
    path.lastPart = last := by
  simp [lastPart, split]

/-- A path that ends in names ends in a part that is not idle. -/
theorem isIdle_lastPart_of_names
    {path : Path}
    {front : List Text}
    (nonempty : names ≠ [])
    (areNames : ∀ name ∈ names, isName name = true)
    (split : Text.splitAt '/' path.text =
      front ++ Text.splitAt '/' (Text.join ['/'] names)) :
    isIdle path.lastPart = false := by
  have same : Text.splitAt '/' (Text.join ['/'] names) = names :=
    Text.splitAt_join nonempty fun name among => (isName_iff.mp (areNames name among)).2.2
  obtain ⟨before, last, rfl⟩ := List.eq_nil_or_concat names |>.resolve_left nonempty
  rw [same, List.concat_eq_append, ← List.append_assoc] at split
  rw [lastPart_of_splitAt split]
  exact (isName_iff.mp (areNames last (by simp))).1

/-- A path that leads to a file does not end in an idle part. -/
theorem isIdle_lastPart_of_resolve
    {files : FileSystem}
    {cwd place : Place}
    {path : Path}
    (leads : files.resolve cwd path = .ok place)
    (notDirectory : files.find? place ≠ some .directory) :
    isIdle path.lastPart = false := by
  refine Bool.eq_false_iff.mpr fun idle => notDirectory ?_
  obtain ⟨-, isDirectory⟩ := FileSystem.follow_frontParts leads
  have same : place = .around cwd path := by
    rw [FileSystem.resolve_eq leads, Place.ofPath_eq_after, Place.after, if_pos idle]
  rw [same, isDirectory]

end Path

/-- The places of a file system are made of names. -/
def FileSystem.IsNamed (files : FileSystem) : Prop :=
  ∀ entry ∈ files.entries, ∀ name ∈ entry.1, Path.isName name = true

instance (files : FileSystem) : Decidable files.IsNamed :=
  inferInstanceAs (Decidable (∀ entry ∈ files.entries, ∀ name ∈ entry.1, Path.isName name = true))

theorem FileSystem.IsNamed.of_append
    {files : FileSystem}
    (named : files.IsNamed)
    {place : Place}
    {names : List Text}
    {entry : Entry}
    (among : (place ++ names, entry) ∈ files.entries) :
    ∀ name ∈ names, Path.isName name = true :=
  fun name isName => named _ among name (List.mem_append_right _ isName)

namespace FilePattern

variable {pattern : FilePattern} {world : World} {names : List Text} {path : Path}

/-! ## Files below the base -/

/-- A regular file below the base of a pattern, with the names on the way to it. The path is
written as a walk from the base writes it. -/
inductive Finds (pattern : FilePattern) (world : World) : List Text → Path → Prop
  | self
      {place : Place}
      {content : Content}
      {executable : Bool}
      (leads : world.files.resolve world.cwd pattern.base = .ok place)
      (found : world.files.find? place = some (.file content executable)) :
      Finds pattern world [] pattern.base
  | below
      {place : Place}
      {names : List Text}
      {content : Content}
      {executable : Bool}
      (leads : world.files.resolve world.cwd pattern.base = .ok place)
      (isDirectory : world.files.find? place = some .directory)
      (proper : names ≠ [])
      (among : (place ++ names, .file content executable) ∈ world.files.entries) :
      Finds pattern world names (pattern.base.join ⟨Text.join ['/'] names⟩)

/-- The way to a file leads through a directory of modules. -/
def IsPruned (pattern : FilePattern) (names : List Text) : Prop :=
  pattern.base.shortName = moduleDirectory ∨ moduleDirectory ∈ names

instance (pattern : FilePattern) (names : List Text) : Decidable (pattern.IsPruned names) :=
  inferInstanceAs (Decidable (_ ∨ _))

theorem isTidy_join_names
    (proper : names ≠ [])
    (areNames : ∀ name ∈ names, Path.isName name = true) :
    Path.IsTidy ⟨Text.join ['/'] names⟩ :=
  ⟨Path.bare_join_names areNames, Path.isIdle_lastPart_of_names proper areNames
    (List.nil_append _).symm⟩

/-- Walked from the working directory, a path is made of the names alone. -/
theorem walked_of_isEmpty
    (empty : pattern.start.text = [])
    (areNames : ∀ name ∈ names, Path.isName name = true) :
    pattern.walked (pattern.base.join ⟨Text.join ['/'] names⟩) = ⟨Text.join ['/'] names⟩ := by
  unfold walked base
  simp only [empty, List.isEmpty_nil, if_true]
  cases names with
  | nil => decide
  | cons name rest =>
      rw [Path.stripBase?_join (by decide)
        (isTidy_join_names (List.cons_ne_nil name rest) areNames)]
      rfl

theorem walked_of_ne_nil (nonempty : pattern.start.text ≠ []) (path : Path) :
    pattern.base = pattern.start ∧ pattern.walked path = path := by
  simp [walked, base, nonempty]

/-- The components of a walked path are those of the start and the names. -/
theorem components_walked
    (pattern : FilePattern)
    (areNames : ∀ name ∈ names, Path.isName name = true) :
    (pattern.walked (pattern.base.join ⟨Text.join ['/'] names⟩)).components =
      pattern.start.components ++ names.map .normal := by
  have components := Path.components_join_names areNames
  by_cases empty : pattern.start.text = []
  · have none : pattern.start.components = [] := by
      obtain ⟨⟨text⟩, glob, cwd⟩ := pattern
      obtain rfl : text = [] := empty
      rfl
    rw [walked_of_isEmpty empty areNames, none, components]
    rfl
  · obtain ⟨isStart, isPath⟩ := walked_of_ne_nil empty (pattern.base.join ⟨Text.join ['/'] names⟩)
    have joined := @Path.components_join pattern.start ⟨Text.join ['/'] names⟩ empty
      (Path.bare_join_names areNames)
    rw [isPath, isStart, joined, components]

/-- Alike walked paths have the same names. -/
theorem eq_of_alike_walked
    {others : List Text}
    (areNames : ∀ name ∈ names, Path.isName name = true)
    (areNamesToo : ∀ name ∈ others, Path.isName name = true)
    (alike : (pattern.walked (pattern.base.join ⟨Text.join ['/'] names⟩)).alike
      (pattern.walked (pattern.base.join ⟨Text.join ['/'] others⟩)) = true) :
    names = others := by
  have components := beq_iff_eq.mp alike
  rw [components_walked _ areNames, components_walked _ areNamesToo] at components
  have injective : Function.Injective PathComponent.normal := fun _ _ => PathComponent.normal.inj
  exact injective.list_map (List.append_cancel_left components)

/-! ## The walk -/

theorem mem_walk_of_isDirectory
    {place : Place}
    (leads : world.files.resolve world.cwd pattern.base = .ok place)
    (isDirectory : world.files.find? place = some .directory) :
    path ∈ world.files.walk world.cwd pattern.base moduleDirectory ↔
      pattern.base.shortName ≠ moduleDirectory ∧ ∃ names content executable,
        (place ++ names, .file content executable) ∈ world.files.entries ∧
          moduleDirectory ∉ names ∧ path = pattern.base.join ⟨Text.join ['/'] names⟩ := by
  unfold FileSystem.walk
  split
  · next pruned => simp [pruned]
  · next kept =>
      rw [leads]
      simp only [isDirectory, List.mem_filterMap, FileSystem.below?]
      refine ⟨?_, ?_⟩
      · rintro ⟨⟨there, entry⟩, among, listed⟩
        split at listed
        · next content executable names isFile isBelow =>
            simp only at isFile isBelow
            subst isFile
            obtain rfl := List.isPrefixOf?_eq_some_iff_append_eq.mp isBelow
            split at listed
            · exact absurd listed nofun
            · next notPruned =>
                exact ⟨kept, names, content, executable, among, by simpa using notPruned,
                  (Option.some.inj listed).symm⟩
        · exact absurd listed nofun
      · rintro ⟨-, names, content, executable, among, notPruned, rfl⟩
        refine ⟨_, among, ?_⟩
        have isBelow := List.isPrefixOf?_eq_some_iff_append_eq.mpr (rfl : place ++ names = _)
        simp [isBelow, notPruned]

namespace Finds

variable (finds : pattern.Finds world names path) (named : world.files.IsNamed)

include finds named

/-- No other file of a walk is alike to one, and the way to one that is listed is not pruned. -/
theorem eq_of_alike
    {other : Path}
    (listed : other ∈ world.files.walk world.cwd pattern.base moduleDirectory)
    (alike : (pattern.walked path).alike (pattern.walked other) = true) :
    other = path ∧ ¬ pattern.IsPruned names := by
  cases finds with
  | self leads found =>
      unfold FileSystem.walk at listed
      split at listed
      · exact absurd listed List.not_mem_nil
      · next kept =>
          rw [leads] at listed
          exact ⟨by simpa [found] using listed, by simp [IsPruned, kept]⟩
  | below leads isDirectory proper among =>
      obtain ⟨kept, others, content, executable, amongToo, notPruned, rfl⟩ :=
        (mem_walk_of_isDirectory leads isDirectory).mp listed
      obtain rfl := eq_of_alike_walked (named.of_append among) (named.of_append amongToo) alike
      exact ⟨rfl, by simp [IsPruned, kept, notPruned]⟩

/-- A walk lists a file just if the way to it is not pruned. -/
theorem mem_walk_iff :
    path ∈ world.files.walk world.cwd pattern.base moduleDirectory ↔
      ¬ pattern.IsPruned names := by
  refine ⟨fun listed => (finds.eq_of_alike named listed (beq_self_eq_true _)).2, fun kept => ?_⟩
  obtain ⟨notModules, notPruned⟩ := not_or.mp kept
  cases finds with
  | self leads found =>
      unfold FileSystem.walk
      rw [if_neg notModules, leads]
      simp [found]
  | below leads isDirectory proper among =>
      exact (mem_walk_of_isDirectory leads isDirectory).mpr
        ⟨notModules, _, _, _, among, notPruned, rfl⟩

/-- A file is selected by the walk just if the way to it is not pruned and the glob matches. -/
theorem mem_files_iff :
    pattern.walked path ∈ (pattern.files.run world).1 ↔
      ¬ pattern.IsPruned names ∧ pattern.glob.doesMatch (pattern.walked path).text = true := by
  have lists := pattern.lists_select
    (world.files.walk world.cwd pattern.base moduleDirectory)
  change pattern.walked path ∈ pattern.select _ ↔ _
  constructor
  · intro selected
    obtain ⟨isWalked, isMatched⟩ := List.mem_filter.mp (lists.sound _ selected)
    obtain ⟨other, listed, same⟩ := List.mem_map.mp isWalked
    exact ⟨(finds.eq_of_alike named listed (by simp [same, Path.alike])).2, isMatched⟩
  · rintro ⟨kept, isMatched⟩
    have listed := (finds.mem_walk_iff named).mpr kept
    obtain ⟨other, selected, alike⟩ := lists.complete _
      (List.mem_filter.mpr ⟨List.mem_map_of_mem listed, isMatched⟩)
    obtain ⟨isWalked, -⟩ := List.mem_filter.mp (lists.sound _ selected)
    obtain ⟨source, listedToo, rfl⟩ := List.mem_map.mp isWalked
    rwa [(finds.eq_of_alike named listedToo alike).1] at selected

/-- A walked path that is not absolute stands as it is behind a directory. -/
theorem isTidy_walked
    (plain : pattern.start.BeginsPlainly)
    (relative : (pattern.walked path).isAbsolute = false) :
    (pattern.walked path).IsTidy := by
  cases finds with
  | self leads found =>
      have solid := Path.isIdle_lastPart_of_resolve leads (by simp [found])
      -- The working directory is no file.
      have nonempty : pattern.start.text ≠ [] := by
        intro empty
        have stop : pattern.base = ⟨['.']⟩ := by simp [base, empty]
        rw [stop] at solid
        exact absurd solid (by decide)
      obtain ⟨isStart, isPath⟩ := walked_of_ne_nil nonempty pattern.base
      rw [isPath] at relative ⊢
      exact ⟨(isStart ▸ plain).bare relative, solid⟩
  | @below place names content executable leads isDirectory proper among =>
      have areNames := named.of_append among
      by_cases empty : pattern.start.text = []
      · rw [walked_of_isEmpty empty areNames]
        exact isTidy_join_names proper areNames
      · obtain ⟨isStart, isPath⟩ :=
          walked_of_ne_nil empty (pattern.base.join ⟨Text.join ['/'] names⟩)
        rw [isPath, isStart] at relative ⊢
        have bareNames := Path.bare_join_names areNames
        have bare := (plain.join empty bareNames).bare relative
        obtain ⟨front, -, parts, -⟩ := Path.exists_parts_join empty bareNames.relative
        unfold Path.parts at parts
        rw [Path.splitLead_of_bare bare] at parts
        exact ⟨bare, Path.isIdle_lastPart_of_names proper areNames parts⟩

end Finds

/-! ## Changed files -/

/-- The other form in which the path of a changed file is matched: from the root on, or from
the working directory on. -/
def otherForm? (pattern : FilePattern) (path : Path) : Option Path :=
  if path.isAbsolute then path.stripBase? pattern.cwd else some (pattern.cwd.join path)

/-- A changed file is matched in both forms of its path. -/
theorem selects_join_iff
    (absolute : pattern.cwd.isAbsolute = true)
    (tidy : path.isAbsolute = false → path.IsTidy) :
    pattern.selects (pattern.cwd.join path) = true ↔
      pattern.glob.doesMatch path.text = true ∨
        ∃ other, pattern.otherForm? path = some other ∧
          pattern.glob.doesMatch other.text = true := by
  unfold selects otherForm?
  rw [Bool.or_eq_true, Option.any_eq_true]
  cases form : path.isAbsolute with
  | true =>
      have same : pattern.cwd.join path = path := by simp [Path.join, form]
      simp [same]
  | false =>
      rw [Path.stripBase?_join (Path.components_ne_nil absolute) (tidy form)]
      simp [or_comm]

end FilePattern

/-! ## Globs that begin with a character -/

/-- Only a slash is written with the byte of a slash in front. -/
theorem Text.head?_utf8EncodeChar (c : Char) :
    (String.utf8EncodeChar c).head? = some Glob.slash ↔ c = '/' := by
  have byte (n : Nat) : UInt8.ofNat n = Glob.slash ↔ n % 256 = 47 := by
    rw [← UInt8.toNat_inj, UInt8.toNat_ofNat']
    rfl
  have code : c = '/' ↔ c.val.toNat = 47 := by
    rw [← Char.toNat_inj]
    rfl
  unfold String.utf8EncodeChar
  simp only [code]
  split
  · simp only [List.head?_cons, Option.some.injEq, byte]
    omega
  · split
    · simp only [List.head?_cons, Option.some.injEq, byte]
      omega
    · split <;>
      · simp only [List.head?_cons, Option.some.injEq, byte]
        omega

theorem Text.head?_bytes (text : Text) :
    text.bytes.head? = some Glob.slash ↔ text.head? = some '/' := by
  cases text with
  | nil => exact ⟨nofun, nofun⟩
  | cons c rest =>
      rw [bytes, List.flatMap_cons, List.head?_append_of_ne_nil _ String.utf8EncodeChar_ne_nil,
        head?_utf8EncodeChar]
      simp

namespace Glob

/-- A glob begins with a character, which is a slash just if a path is absolute. -/
def BeginsLike (glob : Glob) (path : Path) : Prop :=
  ∃ c rest, glob = .literal c :: rest ∧ (c = '/' ↔ path.isAbsolute = true)

/-- A glob that begins with a slash matches absolute paths only, and one that begins with
another character matches none. -/
theorem isAbsolute_of_doesMatch
    {c : Char}
    {rest : List GlobPart}
    {path : Path}
    (isMatch : doesMatch (.literal c :: rest) path.text = true) :
    c = '/' ↔ path.isAbsolute = true := by
  unfold doesMatch isEverything at isMatch
  rw [Bool.false_or, List.contains_iff_mem, allRemainders, List.mem_eraseDups,
    List.mem_flatMap] at isMatch
  obtain ⟨left, among, -⟩ := isMatch
  rw [List.mem_eraseDups, remainders, Option.mem_toList,
    List.isPrefixOf?_eq_some_iff_append_eq] at among
  rw [← Text.head?_utf8EncodeChar, ← List.head?_append_of_ne_nil _ String.utf8EncodeChar_ne_nil,
    among, Text.head?_bytes, Path.isAbsolute, beq_iff_eq]

end Glob

namespace FilePattern

variable {world : World} {pattern : FilePattern} {names : List Text} {path : Path}

/-- The two forms of a path are not both absolute. -/
theorem isAbsolute_otherForm
    {other : Path}
    (absolute : pattern.cwd.isAbsolute = true)
    (form : pattern.otherForm? path = some other) :
    other.isAbsolute = !path.isAbsolute := by
  unfold otherForm? at form
  split at form
  · next fromRoot =>
      rw [fromRoot, Path.isAbsolute_of_stripBase? (Path.components_ne_nil absolute) form]
      rfl
  · next relative =>
      obtain rfl := Option.some.inj form
      rw [Path.isAbsolute_join absolute, Bool.eq_false_iff.mpr relative]
      rfl

/-- A file is found by the walk of a pattern just if the glob matches its path and the way to
it does not lead through a directory of modules. When it has changed it is selected just if
it is found by the walk, or if it is left out for the modules on the way to it, or if the glob
matches the other form of its path. So outside of the directories of modules the two agree
for globs that begin with a character, a slash if they are to match absolute paths. -/
theorem selects_changed_iff
    {environment : Environment}
    {text : Text}
    (chosen : ((ofText environment text).run world).1 = .ok pattern)
    (absolute : environment.cwd.isAbsolute = true)
    (named : world.files.IsNamed)
    (finds : pattern.Finds world names path) :
    let file := pattern.walked path
    let listed := file ∈ (pattern.files.run world).1
    let changed := pattern.selects (environment.cwd.join file) = true
    (listed ↔ ¬ pattern.IsPruned names ∧ pattern.glob.doesMatch file.text = true) ∧
      (changed ↔ listed ∨
        pattern.IsPruned names ∧ pattern.glob.doesMatch file.text = true ∨
        ∃ other, pattern.otherForm? file = some other ∧
          pattern.glob.doesMatch other.text = true) ∧
      (¬ pattern.IsPruned names → pattern.glob.BeginsLike file → (changed ↔ listed)) := by
  intro file listed changed
  obtain ⟨cwd, plain⟩ := beginsPlainly_start chosen
  rw [← cwd] at absolute
  have tidy := finds.isTidy_walked named plain
  have listed_iff : listed ↔
      ¬ pattern.IsPruned names ∧ pattern.glob.doesMatch file.text = true :=
    finds.mem_files_iff named
  have changed_iff : changed ↔ pattern.glob.doesMatch file.text = true ∨
      ∃ other, pattern.otherForm? file = some other ∧
        pattern.glob.doesMatch other.text = true := by
    have both := selects_join_iff absolute tidy
    rwa [cwd] at both
  refine ⟨listed_iff, ?_, fun kept likewise => ?_⟩
  · rw [changed_iff, listed_iff]
    by_cases pruned : pattern.IsPruned names <;> simp [pruned]
  · -- A glob cannot match both forms, of which one begins with a slash.
    have noOther : ¬ ∃ other, pattern.otherForm? file = some other ∧
        pattern.glob.doesMatch other.text = true := by
      rintro ⟨other, form, isMatch⟩
      obtain ⟨c, rest, glob, slash⟩ := likewise
      have forms := isAbsolute_otherForm absolute form
      rw [glob] at isMatch
      have slashToo := Glob.isAbsolute_of_doesMatch isMatch
      rw [forms, slash, Bool.not_eq_true'] at slashToo
      change file.isAbsolute = true ↔ file.isAbsolute = false at slashToo
      simp at slashToo
    rw [changed_iff, listed_iff]
    simp [noOther, kept]

/-! ## A directory of modules -/

/-- A world with a style sheet in a directory of modules and one beside it. -/
def modulesWorld : World :=
  .ofFiles
    ⟨[(["w".toList], .directory), (["w".toList, "a.css".toList], .file (.text []) false),
      (["w".toList, "node_modules".toList], .directory),
      (["w".toList, "node_modules".toList, "x.css".toList], .file (.text []) false)]⟩
    ["w".toList] fun _ => .failed []

/-- The environment of the directory with them. -/
def modulesEnvironment : Environment :=
  ⟨"/w", [], none⟩

/-- The pattern of the working directory. -/
def modulesPattern : FilePattern :=
  ⟨⟨[]⟩, (Glob.ofText sheetsBelow).toOption.getD [], "/w"⟩

theorem ofText_modules :
    ((ofText modulesEnvironment ".").run modulesWorld).1 = .ok modulesPattern := rfl

theorem finds_modules (names : List Text) (content : Content) (executable : Bool)
    (proper : names ≠ [])
    (among : ("w".toList :: names, .file content executable) ∈ modulesWorld.files.entries) :
    modulesPattern.Finds modulesWorld names
      (modulesPattern.base.join ⟨Text.join ['/'] names⟩) :=
  @Finds.below _ _ ["w".toList] names content executable rfl rfl proper among

theorem selects_changed_iff_modules :
    ((ofText modulesEnvironment ".").run modulesWorld).1 = .ok modulesPattern ∧
      modulesEnvironment.cwd.isAbsolute = true ∧
      modulesWorld.files.IsNamed ∧
      modulesPattern.Finds modulesWorld ["a.css".toList] "./a.css" ∧
      ("a.css" : Path) ∈ (modulesPattern.files.run modulesWorld).1 ∧
      modulesPattern.selects "/w/a.css" = true := by
  have named : modulesWorld.files.IsNamed := by decide
  have finds := finds_modules ["a.css".toList] (.text []) false nofun (by decide)
  obtain ⟨listed, changed, -⟩ := selects_changed_iff ofText_modules rfl named finds
  have isListed := listed.mpr (by decide +kernel)
  exact ⟨rfl, rfl, named, finds, isListed, changed.mpr (.inl isListed)⟩

/-- When it has changed, a style sheet in a directory of modules is selected, though the walk
leaves it out. -/
theorem modules_selected :
    ((ofText modulesEnvironment ".").run modulesWorld).1 = .ok modulesPattern ∧
      modulesPattern.Finds modulesWorld ["node_modules".toList, "x.css".toList]
        "./node_modules/x.css" ∧
      modulesPattern.walked "./node_modules/x.css" = ("node_modules/x.css" : Path) ∧
      modulesPattern.selects "/w/node_modules/x.css" = true ∧
      ("node_modules/x.css" : Path) ∉ (modulesPattern.files.run modulesWorld).1 := by
  have finds := finds_modules ["node_modules".toList, "x.css".toList] (.text []) false nofun
    (by decide)
  refine ⟨rfl, finds, by decide +kernel, by decide +kernel, fun listed => ?_⟩
  have among := ((modulesPattern.lists_select _).sound _ listed)
  exact absurd among (by decide +kernel)

end FilePattern
end StyleTypings
