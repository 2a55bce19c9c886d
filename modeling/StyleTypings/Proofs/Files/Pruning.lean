import StyleTypings.Proofs.Files.Denoting
import StyleTypings.Proofs.Files.Literal
import StyleTypings.Proofs.Glob.Beginning

/-!
# What the walk of a glob loses

A glob is not matched against all files, but against those below the literal start of the pattern.
Nothing is lost by that if what the glob matches begins with the start. It does so if no part of
the start has a backslash, which is no sign of a glob for the start while the glob reads it as one.
Only a path that goes up behind the start is not found even so, since a walk leads down.
-/

namespace StyleTypings

/-- A path that leads on from another one by names alone. -/
def Path.IsBelow (path start : Path) : Prop :=
  ∃ names : List Text, path.components = start.components ++ names.map .normal

namespace FilePattern

variable {environment : Environment} {world : World} {text written : Text} {files : List Path}
  {pattern : FilePattern} {glob : Glob} {place : Place} {path : Path}
  {starts names more : List Text} {absolute : Bool} {content : Content} {executable : Bool}

/-! ## Globs and literal starts -/

theorem isLiteral_of_isQuiet
    {part : Text}
    (quiet : isQuiet part = true)
    (plain : '\\' ∉ part) :
    ∀ c ∈ part, Glob.isLiteral c = true := by
  intro c among
  obtain ⟨noStar, noMark, noBracket, noBrace⟩ := isQuiet_iff.mp quiet c among
  have noBackslash : c ≠ '\\' := fun same => plain (same ▸ among)
  simp [Glob.isLiteral, noStar, noMark, noBracket, noBrace, noBackslash]

/-- Parts of a pattern stand for themselves if none that is a name has a sign or a backslash. -/
theorem isLiteral_join
    {parts : List Text}
    (quiet : ∀ part ∈ parts.filter Path.isSolid, isQuiet part = true ∧ '\\' ∉ part) :
    ∀ c ∈ Text.join ['/'] parts, Glob.isLiteral c = true := by
  intro c among
  rcases Text.mem_join among with slash | ⟨part, isPart, inside⟩
  · rw [List.mem_singleton.mp slash]
    rfl
  · cases idle : Path.isIdle part with
    | true =>
        rcases Path.isIdle_iff.mp idle with rfl | rfl
        · cases inside
        · rw [List.mem_singleton.mp inside]
          rfl
    | false =>
        have solid : Path.isSolid part = true := by simp [Path.isSolid, idle]
        obtain ⟨isQuiet, plain⟩ := quiet part (List.mem_filter.mpr ⟨isPart, solid⟩)
        exact isLiteral_of_isQuiet isQuiet plain c inside

/-- Other paths that a glob matches begin with the start of the pattern, if that has no
backslash. -/
theorem startNames_prefix_names
    (read : Glob.ofText written = .ok glob)
    (isMatch : glob.doesMatch path.text = true)
    (other : path.text ≠ written)
    (plain : ∀ part ∈ startNames written, '\\' ∉ part) :
    startNames written <+: path.names := by
  have quiet : ∀ part ∈ startNames written, isQuiet part = true ∧ '\\' ∉ part := by
    intro part among
    have begins := startNames_prefix_quietNames written
    exact ⟨List.mem_takeWhile_imp (begins.subset among), plain part among⟩
  rcases exists_startNames written with ⟨front, back, split, proper, isFront⟩ | ⟨whole, areQuiet⟩
  · by_cases alone : front = []
    · rw [← isFront, alone]
      exact List.nil_prefix
    · have text : written = Text.join ['/'] front ++ '/' :: Text.join ['/'] back := by
        rw [← Text.join_splitAt '/' written, split, Text.join_append alone proper]
        rfl
      rw [text] at read
      obtain ⟨behind, isPath⟩ := Glob.exists_of_doesMatch (isLiteral_join (isFront ▸ quiet)) read
        isMatch
      have without : ∀ part ∈ front, '/' ∉ part := fun part among =>
        Text.notMem_of_mem_splitAt (split ▸ List.mem_append_left back among)
      rw [Path.names_eq, isPath, Text.splitAt_append_cons, Text.splitAt_join alone without,
        List.filter_append, isFront]
      exact List.prefix_append _ _
  · -- A pattern without any sign matches only itself.
    rw [whole, quietNames_of_forall areQuiet] at quiet
    have literal := isLiteral_join quiet
    rw [Text.join_splitAt] at literal
    exact absurd (Glob.eq_of_doesMatch literal read isMatch) other

/-! ## Files below the start -/

theorem prefix_join
    {base : Path}
    (relative : path.isAbsolute = false) :
    base.text <+: (base.join path).text := by
  unfold Path.join
  rw [if_neg (by simp [relative])]
  split <;> exact List.prefix_append _ _

/-- On its way to names behind other parts a path leads to a directory. -/
theorem exists_directory_of_resolve
    (areParts : ∀ part ∈ starts ++ more, Path.isPart part = true)
    (descends : ∀ part ∈ more, part ≠ ['.', '.'])
    (proper : more ≠ [])
    (leads : world.files.resolve world.cwd (.ofParts absolute (starts ++ more)) = .ok place) :
    ∃ directory,
      world.files.follow (.origin world.cwd (.ofParts absolute starts)) starts = .ok directory ∧
        world.files.find? directory = some .directory ∧ place = directory ++ more := by
  obtain ⟨areStarts, areMore⟩ := List.forall_mem_append.mp areParts
  have form : Place.origin world.cwd (.ofParts absolute (starts ++ more)) =
      .origin world.cwd (.ofParts absolute starts) := by
    rw [Place.origin, Place.origin, Path.isAbsolute_ofParts areParts,
      Path.isAbsolute_ofParts areStarts]
  have followed := FileSystem.follow_filter (FileSystem.follow_of_resolve leads)
  rw [← Path.names_eq, form, Path.names_ofParts areParts, FileSystem.follow_append] at followed
  cases reached : world.files.follow (.origin world.cwd (.ofParts absolute starts)) starts with
  | error problem =>
      rw [reached] at followed
      cases followed
  | ok directory =>
      rw [reached] at followed
      have followedMore : world.files.follow directory more = .ok place := followed
      obtain ⟨first, others, isMore⟩ := List.exists_cons_of_ne_nil proper
      refine ⟨directory, rfl, FileSystem.find?_of_follow_cons (isMore ▸ followedMore), ?_⟩
      rw [FileSystem.follow_eq followedMore, Place.foldl_after descends]
      exact congrArg (directory ++ ·) (Path.filter_of_areParts areMore)

/-- A file to which names lead from the start is below the base of the walk. -/
theorem exists_finds
    (isStart : pattern.start = .ofParts absolute starts)
    (isPath : path = .ofParts absolute (starts ++ more))
    (areParts : ∀ part ∈ starts ++ more, Path.isPart part = true)
    (descends : ∀ part ∈ more, part ≠ ['.', '.'])
    (leads : world.files.resolve world.cwd path = .ok place)
    (found : world.files.find? place = some (.file content executable)) :
    ∃ source, pattern.Finds world more source ∧ pattern.walked source = path := by
  obtain ⟨areStarts, areMore⟩ := List.forall_mem_append.mp areParts
  by_cases alone : more = []
  · obtain rfl := alone
    have same : path = pattern.start := by rw [isPath, isStart, List.append_nil]
    have nonempty : pattern.start.text ≠ [] := by
      intro empty
      rw [same, FileSystem.resolve, if_pos (by simp [empty])] at leads
      cases leads
    obtain ⟨isBase, isWalked⟩ := walked_of_ne_nil nonempty pattern.base
    refine ⟨pattern.base, .self ?_ found, ?_⟩
    · rwa [isBase, ← same]
    · rw [isWalked, isBase, same]
  · have joined : pattern.start.join ⟨Text.join ['/'] more⟩ = path := by
      rw [isStart, isPath]
      exact Path.join_ofParts areStarts areMore alone
    have relative : Path.isAbsolute ⟨Text.join ['/'] more⟩ = false :=
      (Path.bare_of_areParts areMore).relative
    have admissible : pattern.start.isAdmissible = true :=
      Path.isAdmissible_of_byteSize_le
        (Text.byteSize_le_of_prefix (joined ▸ prefix_join relative))
        (FileSystem.isAdmissible_of_resolve leads)
    obtain ⟨directory, followed, isDirectory, rfl⟩ :=
      exists_directory_of_resolve areParts descends alone (isPath ▸ leads)
    have isBase : world.files.resolve world.cwd pattern.base = .ok directory := by
      refine resolve_base ?_ isDirectory admissible
      rw [← Path.names_eq, isStart, Path.names_ofParts areStarts, followed]
    have areNames : ∀ name ∈ more, Path.isName name = true := by
      intro name among
      obtain ⟨solid, simple⟩ := Path.isPart_iff.mp (areMore name among)
      exact Path.isName_iff.mpr ⟨by simpa [Path.isSolid] using solid, descends name among, simple⟩
    have proper : directory ++ more ≠ [] := List.append_ne_nil_of_right_ne_nil _ alone
    refine ⟨_, .below isBase isDirectory alone (FileSystem.mem_entries_of_find? found proper), ?_⟩
    rw [walked_join areNames, joined]

/-- A path with the short name of a directory of modules has that name for a component. -/
theorem mem_components_of_shortName (short : path.shortName = moduleDirectory) :
    .normal moduleDirectory ∈ path.components := by
  cases named : path.fileName? with
  | none =>
      have text : path = ⟨moduleDirectory⟩ := by
        rw [Path.shortName, named] at short
        exact congrArg Path.mk short
      rw [text]
      decide
  | some name =>
      obtain rfl : name = moduleDirectory := by
        rw [Path.shortName, named] at short
        exact short
      unfold Path.fileName? at named
      split at named
      · next last =>
          obtain rfl := Option.some.inj named
          exact List.mem_of_getLast? last
      · cases named

/-- Whatever a walk selects is below its start. -/
theorem isBelow_of_mem_select
    (named : world.files.IsNamed)
    (listed : path ∈ pattern.select
      (world.files.walk world.cwd pattern.base moduleDirectory)) :
    path.IsBelow pattern.start := by
  obtain ⟨isWalked, -⟩ := List.mem_filter.mp ((pattern.lists_select _).sound path listed)
  obtain ⟨source, among, rfl⟩ := List.mem_map.mp isWalked
  cases leads : world.files.resolve world.cwd pattern.base with
  | error problem =>
      unfold FileSystem.walk at among
      rw [leads] at among
      split at among <;> cases among
  | ok place =>
      by_cases isDirectory : world.files.find? place = some .directory
      · obtain ⟨-, names, content, executable, entry, -, rfl⟩ :=
          (mem_walk_of_isDirectory leads isDirectory).mp among
        exact ⟨names, components_walked pattern (named.of_append entry)⟩
      · obtain rfl : source = pattern.base := by
          unfold FileSystem.walk at among
          rw [leads] at among
          split at among
          · cases among
          · match found : world.files.find? place with
            | none => simp [found] at among
            | some .directory => exact absurd found isDirectory
            | some (.file content executable) => simpa [found] using among
        -- The base is a file, so it is not the working directory.
        have nonempty : pattern.start.text ≠ [] := by
          intro empty
          have solid := Path.isIdle_lastPart_of_resolve leads isDirectory
          have stop : pattern.base = ⟨['.']⟩ := by simp [base, empty]
          rw [stop] at solid
          exact absurd solid (by decide)
        obtain ⟨isBase, isWalked⟩ := walked_of_ne_nil nonempty pattern.base
        exact ⟨[], by rw [isWalked, isBase, List.map_nil, List.append_nil]⟩

/-! ## Files that a pattern is to find -/

/-- A file that a pattern is to find: its path is written without full stops and repeated slashes,
from the root if the pattern is absolute and from the working directory otherwise, leads through
no directory of modules, and is matched by the glob. -/
structure IsWanted (world : World) (written : Text) (glob : Glob) (path : Path) : Prop where
  clean : path.IsClean
  form : path.isAbsolute = Path.isAbsolute ⟨written⟩
  isFile : ∃ content executable,
    world.files.entryAt world.cwd path = .ok (.file content executable)
  outside : .normal moduleDirectory ∉ path.components
  isMatch : glob.doesMatch path.text = true

/-- Behind its first names a path has the components of the other ones. -/
theorem components_of_names
    (plain : path.BeginsPlainly)
    (areParts : ∀ part ∈ starts, Path.isPart part = true)
    (split : path.names = starts ++ more) :
    path.components =
      (Path.ofParts path.isAbsolute starts).components ++ more.map Path.componentOf := by
  rw [plain.components_eq, (Path.beginsPlainly_ofParts areParts).components_eq,
    Path.isAbsolute_ofParts areParts, Path.names_ofParts areParts, split, List.map_append,
    List.append_assoc]

theorem isBelow_iff
    (plain : path.BeginsPlainly)
    (areParts : ∀ part ∈ starts, Path.isPart part = true) :
    path.IsBelow (.ofParts path.isAbsolute starts) ↔
      ∃ more, path.names = starts ++ more ∧ ∀ part ∈ more, part ≠ ['.', '.'] := by
  have plainStart := @Path.beginsPlainly_ofParts path.isAbsolute _ areParts
  have form := (@Path.isAbsolute_ofParts path.isAbsolute _ areParts).symm
  constructor
  · rintro ⟨names, split⟩
    have begins := (plainStart.components_prefix_iff plain form).mp ⟨_, split.symm⟩
    rw [Path.names_ofParts areParts] at begins
    obtain ⟨more, isNames⟩ := begins
    refine ⟨more, isNames.symm, ?_⟩
    rintro _ among rfl
    rw [components_of_names plain areParts isNames.symm, List.append_right_inj] at split
    have parent : PathComponent.parent ∈ names.map .normal :=
      split ▸ List.mem_map_of_mem among
    simp at parent
  · rintro ⟨more, split, descends⟩
    refine ⟨more, ?_⟩
    rw [components_of_names plain areParts split]
    congr 1
    exact List.map_congr_left fun part among => by simp [Path.componentOf, descends part among]

/-- From a literal start just the wanted files are found that are below it. -/
theorem mem_select_iff_isBelow
    (named : world.files.IsNamed)
    (plain : Path.BeginsPlainly ⟨written⟩)
    (isStart : pattern.start = literalStart written)
    (wanted : IsWanted world written pattern.glob path) :
    path ∈ pattern.select (world.files.walk world.cwd pattern.base moduleDirectory) ↔
      path.IsBelow pattern.start := by
  refine ⟨isBelow_of_mem_select named, fun below => ?_⟩
  have areStarts := @isPart_of_mem_startNames written
  obtain ⟨clean, form, ⟨content, executable, isFile⟩, outside, isMatch⟩ := wanted
  rw [literalStart_eq plain, ← form] at isStart
  rw [isStart, isBelow_iff clean.plain areStarts] at below
  obtain ⟨more, split, descends⟩ := below
  obtain ⟨leads, found⟩ := FileSystem.entryAt_eq isFile
  have isPath := clean.eq_ofParts
  rw [split] at isPath
  obtain ⟨source, finds, walked⟩ := exists_finds isStart isPath
    (split ▸ path.isPart_of_mem_names) descends leads found
  have components := components_of_names clean.plain areStarts split
  rw [← isStart] at components
  have kept : ¬ pattern.IsPruned more := by
    rintro (start | inside)
    · refine outside ?_
      rw [components]
      exact List.mem_append_left _ (mem_components_of_shortName (shortName_base.mp start))
    · refine outside ?_
      rw [components]
      exact List.mem_append_right _ (List.mem_map.mpr ⟨_, inside, rfl⟩)
  have selected := (finds.mem_files_iff named).mpr ⟨kept, by rwa [walked]⟩
  rwa [walked] at selected

/-- What a pattern that names nothing walks and matches. -/
theorem gives_of_nothing_iff
    (nothing : world.files.kind? world.cwd ⟨dropCurrent text⟩ = none)
    (nonempty : dropCurrent text ≠ []) :
    Gives environment world text files ↔
      ∃ glob, Glob.ofText (dropCurrent text) = .ok glob ∧
        let pattern : FilePattern := ⟨literalStart (dropCurrent text), glob, environment.cwd⟩
        files = pattern.select (world.files.walk world.cwd pattern.base moduleDirectory) := by
  refine gives_iff ?_
  rw [nothing, interpret, if_neg (by simpa using nonempty)]

theorem exists_gives_of_empty (empty : dropCurrent text = []) :
    ∃ files, Gives environment world text files := by
  have interpreted : interpret (dropCurrent text)
      (world.files.kind? world.cwd ⟨dropCurrent text⟩) = (⟨[]⟩, sheetsBelow) := by
    rw [empty]
    rfl
  exact ⟨_, (gives_iff interpreted).mpr ⟨_, rfl, rfl⟩⟩

namespace IsWanted

/-- No path is wanted by an empty pattern. -/
theorem nonempty
    (wanted : IsWanted world written glob path)
    (read : Glob.ofText written = .ok glob) :
    written ≠ [] := by
  rintro rfl
  obtain ⟨content, executable, isFile⟩ := wanted.isFile
  have empty := Glob.eq_of_doesMatch (by simp) read wanted.isMatch
  have nowhere : world.files.entryAt world.cwd path = .error .notFound := by
    rw [FileSystem.entryAt, FileSystem.resolve, if_pos (by simp [empty])]
    rfl
  rw [nowhere] at isFile
  cases isFile

/-- A pattern that names nothing is not itself wanted. -/
theorem text_ne
    (wanted : IsWanted world written glob path)
    (nothing : world.files.kind? world.cwd ⟨written⟩ = none) :
    path.text ≠ written := by
  rintro rfl
  obtain ⟨content, executable, isFile⟩ := wanted.isFile
  rw [FileSystem.kind?, isFile] at nothing
  cases nothing

/-- A wanted path is below the literal start of the pattern, if the start has no backslash and
the path does not go up behind it. -/
theorem isBelow
    (wanted : IsWanted world written glob path)
    (plain : Path.BeginsPlainly ⟨written⟩)
    (nothing : world.files.kind? world.cwd ⟨written⟩ = none)
    (read : Glob.ofText written = .ok glob)
    (noBackslash : '\\' ∉ (literalStart written).text)
    (descends : .parent ∉ path.components.drop (literalStart written).components.length) :
    path.IsBelow (literalStart written) := by
  have areStarts := @isPart_of_mem_startNames written
  have isStart := literalStart_eq plain
  have plainStart : ∀ part ∈ startNames written, '\\' ∉ part := by
    intro part among inside
    apply noBackslash
    rw [isStart]
    exact List.mem_append_right _ (Text.mem_join_of_mem among inside)
  obtain ⟨more, split⟩ := startNames_prefix_names read wanted.isMatch (wanted.text_ne nothing)
    plainStart
  rw [isStart, ← wanted.form] at descends ⊢
  rw [components_of_names wanted.clean.plain areStarts split.symm, List.drop_left] at descends
  refine (isBelow_iff wanted.clean.plain areStarts).mpr ⟨more, split.symm, ?_⟩
  rintro _ among rfl
  exact descends (List.mem_map.mpr ⟨_, among, rfl⟩)

end IsWanted

/-- A pattern that names neither a file nor a directory finds just the wanted files to which names
lead from its literal start. If the start has no backslash, all wanted files are found but those
with a path that goes up behind the start. -/
theorem finds_wanted
    (named : world.files.IsNamed)
    (nothing : world.files.kind? world.cwd ⟨dropCurrent text⟩ = none)
    (read : Glob.ofText (dropCurrent text) = .ok glob) :
    ∃ files, Gives environment world text files ∧
      ∀ path, IsWanted world (dropCurrent text) glob path →
        let start := literalStart (dropCurrent text)
        (path ∈ files ↔ path.IsBelow start) ∧
          ('\\' ∉ start.text →
            .parent ∉ path.components.drop start.components.length → path ∈ files) := by
  have plain := beginsPlainly_dropCurrent text
  by_cases empty : dropCurrent text = []
  · obtain ⟨files, gives⟩ := @exists_gives_of_empty environment world text empty
    refine ⟨files, gives, ?_⟩
    intro path wanted
    exact absurd empty (wanted.nonempty read)
  · refine ⟨_, (gives_of_nothing_iff nothing empty).mpr ⟨glob, read, rfl⟩, ?_⟩
    intro path wanted
    have isListed := @mem_select_iff_isBelow world _
      ⟨literalStart (dropCurrent text), glob, environment.cwd⟩ path named plain rfl wanted
    refine ⟨isListed, ?_⟩
    intro noBackslash descends
    exact isListed.mpr (wanted.isBelow plain nothing read noBackslash descends)

/-- A world with a style sheet in a directory that stands in another one. -/
def nestedWorld : World :=
  .ofFiles
    ⟨[(["w".toList], .directory), (["w".toList, "src".toList], .directory),
      (["w".toList, "src".toList, "sub".toList], .directory),
      (["w".toList, "src".toList, "sub".toList, "x.css".toList], .file (.text []) false)]⟩
    ["w".toList] fun _ => .failed []

/-- The glob of a pattern for the style sheets below a directory. -/
def nestedGlob : Glob :=
  "src".toList.map .literal ++ .treeInside :: .star :: ".css".toList.map .literal

theorem finds_wanted_nested :
    nestedWorld.files.IsNamed ∧
      nestedWorld.files.kind? nestedWorld.cwd ⟨dropCurrent "./src/**/*.css"⟩ = none ∧
      Glob.ofText (dropCurrent "./src/**/*.css") = .ok nestedGlob ∧
      IsWanted nestedWorld (dropCurrent "./src/**/*.css") nestedGlob "src/sub/x.css" ∧
      ∃ files : List Path, Gives ⟨"/w", [], none⟩ nestedWorld "./src/**/*.css" files ∧
        ("src/sub/x.css" : Path) ∈ files := by
  have named : nestedWorld.files.IsNamed := by decide
  have read : Glob.ofText (dropCurrent "./src/**/*.css") = .ok nestedGlob := rfl
  have wanted : IsWanted nestedWorld (dropCurrent "./src/**/*.css") nestedGlob "src/sub/x.css" :=
    ⟨by decide, rfl, ⟨.text [], false, rfl⟩, by decide, by decide +kernel⟩
  obtain ⟨files, gives, finds⟩ := @finds_wanted ⟨"/w", [], none⟩ nestedWorld "./src/**/*.css"
    nestedGlob named rfl read
  exact ⟨named, rfl, read, wanted, files, gives, (finds _ wanted).2 (by decide) (by decide)⟩

/-- A world with a style sheet in a directory whose name a pattern may write with a backslash. -/
def escapedWorld : World :=
  .ofFiles
    ⟨[(["w".toList], .directory), (["w".toList, "ab".toList], .directory),
      (["w".toList, "ab".toList, "x.css".toList], .file (.text []) false)]⟩
    ["w".toList] fun _ => .failed []

/-- The glob of a pattern that writes the name so. -/
def escapedGlob : Glob :=
  "ab/".toList.map .literal ++ .star :: ".css".toList.map .literal

/-- A backslash in the name of a directory loses what the glob matches there. -/
theorem backslash_loses_file :
    escapedWorld.files.IsTree ∧
      escapedWorld.files.kind? escapedWorld.cwd ⟨dropCurrent "a\\b/*.css"⟩ = none ∧
      Glob.ofText (dropCurrent "a\\b/*.css") = .ok escapedGlob ∧
      IsWanted escapedWorld (dropCurrent "a\\b/*.css") escapedGlob "ab/x.css" ∧
      ∀ files : List Path, Gives ⟨"/w", [], none⟩ escapedWorld "a\\b/*.css" files →
        ("ab/x.css" : Path) ∉ files := by
  have nothing : escapedWorld.files.kind? escapedWorld.cwd ⟨dropCurrent "a\\b/*.css"⟩ = none :=
    rfl
  refine ⟨by decide, nothing, rfl,
    ⟨by decide, rfl, ⟨.text [], false, rfl⟩, by decide, by decide +kernel⟩, ?_⟩
  intro files gives listed
  obtain ⟨glob, -, rfl⟩ := (gives_of_nothing_iff nothing (by decide)).mp gives
  obtain ⟨names, split⟩ := isBelow_of_mem_select (by decide) listed
  have first : PathComponent.normal "ab".toList = .normal "a\\b".toList :=
    (List.cons.inj split).1
  exact absurd first (by decide)

end FilePattern
end StyleTypings
