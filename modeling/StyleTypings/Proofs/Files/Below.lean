import StyleTypings.Proofs.Files.Single

/-!
# Patterns that name a directory

The walk starts from a directory as the pattern writes it, without the slashes at its end, so
however it is written the walked paths begin as the glob does. There are three exceptions: a
backslash, which the glob takes for itself; a directory named like those of modules, which the
walk leaves out; and the root, of which nothing is left without its slash, so that the walk
starts from the working directory while the glob still asks for a slash in front.
-/

namespace StyleTypings
namespace FilePattern

variable {environment : Environment} {world : World} {text : Text} {files : List Path}
  {pattern : FilePattern} {place : Place} {path : Path} {names : List Text}

/-! ## Globs for the style sheets below a directory -/

theorem ofText_sheetsBelow : Glob.ofText sheetsBelow = .ok (.treeStart :: Glob.sheetParts) :=
  rfl

/-- Behind an escaped directory the glob for style sheets is read as it is. -/
theorem ofText_escape_sheetsBelow (plain : '\\' ∉ text) :
    Glob.ofText (Glob.escape text ++ '/' :: sheetsBelow) =
      .ok (text.map Glob.escapedPart ++ .treeInside :: Glob.sheetParts) := by
  obtain ⟨previous, reads⟩ := @Glob.readFrom_escape text Glob.Reader.start rfl plain
  obtain ⟨extra, bound⟩ := Nat.exists_eq_add_of_le (Glob.length_le_escape text)
  have sum : (Glob.escape text ++ '/' :: sheetsBelow).length + 1 =
      text.length + (extra + 17) := by
    rw [List.length_append, bound, Nat.add_assoc, Nat.add_assoc]
    rfl
  rw [Glob.ofText, sum, reads, Glob.Reader.start, List.append_nil]
  generalize branched : (text.map Glob.escapedPart).reverse = branch
  have read : Glob.readFrom (extra + 17) ⟨branch, [], previous⟩ ('/' :: sheetsBelow) =
      .ok (Glob.sheetParts.reverse ++ .treeInside :: branch).reverse := rfl
  rw [read, ← branched]
  simp

/-- The names below a directory end in that of a style sheet. -/
def EndsInSheet (names : List Text) : Prop :=
  ∃ name, names.getLast? = some name ∧ Glob.isSheetName name = true

theorem not_isEverything_append (front : List GlobPart) (part : GlobPart) :
    ¬ Glob.isEverything (front ++ part :: Glob.sheetParts) = true := by
  rw [Glob.isEverything_iff]
  intro same
  have sizes := congrArg List.length same
  simp only [List.length_append, List.length_cons, Glob.sheetParts, List.length_nil] at sizes
  omega

/-- Below the working directory the glob matches the style sheets. -/
theorem doesMatch_sheetsBelow (without : ∀ name ∈ names, '/' ∉ name) :
    Glob.doesMatch (.treeStart :: Glob.sheetParts) (Text.join ['/'] names) = true ↔
      EndsInSheet names := by
  have several : ¬ Glob.isEverything (.treeStart :: Glob.sheetParts) = true :=
    not_isEverything_append [] _
  rw [Glob.doesMatch_iff, or_iff_right several, Glob.leaves_cons]
  simp only [Glob.mem_remainders_treeStart]
  exact Glob.exists_leaves_sheetParts without

theorem leaves_treeInside_iff {path : Bytes} :
    Glob.Leaves (.treeInside :: Glob.sheetParts) (Glob.slash :: path) [] ↔
      ∃ left, (left = path ∨ ∃ front, path = front ++ Glob.slash :: left) ∧
        Glob.Leaves Glob.sheetParts left [] := by
  rw [Glob.leaves_cons]
  simp only [Glob.mem_remainders_treeInside]
  constructor
  · rintro ⟨left, ⟨rest, same, place⟩, matched⟩
    obtain rfl := (List.cons.inj same).2
    exact ⟨left, place, matched⟩
  · rintro ⟨left, place, matched⟩
    exact ⟨left, ⟨_, rfl, place⟩, matched⟩

/-- Below a directory the glob matches the style sheets. -/
theorem doesMatch_escape_sheetsBelow
    {directory : Text}
    (without : ∀ name ∈ names, '/' ∉ name) :
    Glob.doesMatch (directory.map Glob.escapedPart ++ .treeInside :: Glob.sheetParts)
        (directory ++ '/' :: Text.join ['/'] names) = true ↔
      EndsInSheet names := by
  have bytes : Text.bytes (directory ++ '/' :: Text.join ['/'] names) =
      directory.bytes ++ Glob.slash :: (Text.join ['/'] names).bytes := Text.bytes_append _ _
  rw [Glob.doesMatch_iff, or_iff_right (not_isEverything_append _ _), Glob.leaves_append, bytes]
  simp only [Glob.leaves_escaped, List.append_cancel_left_eq, exists_eq_left']
  rw [leaves_treeInside_iff]
  exact Glob.exists_leaves_sheetParts without

/-- Without a directory in front the glob asks for a slash. -/
theorem not_doesMatch_treeInside
    {path : Text}
    (relative : path.head? ≠ some '/') :
    Glob.doesMatch (.treeInside :: Glob.sheetParts) path = false := by
  refine Bool.eq_false_iff.mpr fun isMatch => ?_
  rcases Glob.doesMatch_iff.mp isMatch with everything | leaves
  · exact not_isEverything_append [] _ everything
  · obtain ⟨left, begins, -⟩ := Glob.leaves_cons.mp leaves
    obtain ⟨rest, bytes, -⟩ := Glob.mem_remainders_treeInside.mp begins
    have split : path.bytes = [] ++ Glob.slash :: rest := bytes
    obtain ⟨front, c, back, rfl, empty, -, code⟩ := Text.exists_char_of_bytes (by decide) split
    obtain rfl : c = '/' := Char.toNat_inj.mp code
    obtain rfl : front = [] := Text.bytes_injective empty
    exact relative rfl

/-! ## Where the walk starts -/

/-- A pattern that names a directory, without the slashes at its end. -/
def trimmed (text : Text) : Text :=
  text.dropEndWhile (· == '/')

theorem exists_eq_trimmed_append (text : Text) :
    ∃ slashes : Text, text = trimmed text ++ slashes ∧ ∀ c ∈ slashes, c = '/' := by
  obtain ⟨slashes, whole, areSlashes⟩ := Text.exists_eq_dropEndWhile_append (· == '/') text
  exact ⟨slashes, whole, fun c among => by simpa using areSlashes c among⟩

theorem getLast?_trimmed_ne (text : Text) : (trimmed text).getLast? ≠ some '/' := by
  have notSlash := List.head?_dropWhile_not (· == '/') text.reverse
  rw [trimmed, Text.dropEndWhile, List.getLast?_reverse]
  intro slash
  rw [slash] at notSlash
  cases notSlash

theorem filter_splitAt_trimmed (text : Text) :
    (Text.splitAt '/' (trimmed text)).filter Path.isSolid =
      (Text.splitAt '/' text).filter Path.isSolid := by
  obtain ⟨slashes, whole, areSlashes⟩ := exists_eq_trimmed_append text
  generalize trimmed text = front at whole
  subst whole
  cases slashes with
  | nil => rw [List.append_nil]
  | cons c rest =>
      obtain ⟨rfl, others⟩ := List.forall_mem_cons.mp areSlashes
      obtain ⟨idle, areIdle, split⟩ := exists_splitAt_dropWhile rest
      have none : rest.dropWhile (· == '/') = [] :=
        List.dropWhile_eq_nil_iff.mpr fun c among => by simp [others c among]
      rw [Text.splitAt_append_cons, split, none, List.filter_append, List.filter_append,
        Path.filter_isSolid_eq_nil areIdle]
      exact (List.append_nil _).symm

/-- Without slashes at its end a pattern leads to the same directory, unless it is the root. -/
theorem resolve_base_of_directory
    (starts : pattern.start = ⟨trimmed (dropCurrent text)⟩)
    (proper : dropCurrent text ≠ [] → trimmed (dropCurrent text) ≠ [])
    (leads : world.files.resolve world.cwd ⟨text⟩ = .ok place)
    (isDirectory : world.files.find? place = some .directory) :
    world.files.resolve world.cwd pattern.base = .ok place ∧
      place = .ofPath world.cwd pattern.start := by
  rcases resolve_dropCurrent leads with ⟨empty, rfl, -⟩ | ⟨nonempty, leadsToo⟩
  · rw [empty] at starts
    have followed : world.files.follow (.origin world.cwd pattern.start)
        ((Text.splitAt '/' pattern.start.text).filter Path.isSolid) = .ok world.cwd := by
      rw [starts]
      rfl
    refine ⟨resolve_base followed isDirectory (by rw [starts]; rfl), ?_⟩
    rw [starts]
    rfl
  · have nonemptyToo := proper nonempty
    obtain ⟨slashes, whole, -⟩ := exists_eq_trimmed_append (dropCurrent text)
    have begins : trimmed (dropCurrent text) <+: dropCurrent text := ⟨slashes, whole.symm⟩
    have form : Path.isAbsolute ⟨trimmed (dropCurrent text)⟩ =
        Path.isAbsolute ⟨dropCurrent text⟩ := by
      obtain ⟨c, rest, isText⟩ := List.exists_cons_of_ne_nil nonemptyToo
      rw [isText] at whole
      rw [Path.isAbsolute, Path.isAbsolute, isText, whole]
      rfl
    have leadsThere : world.files.resolve world.cwd ⟨trimmed (dropCurrent text)⟩ = .ok place :=
      FileSystem.resolve_of_filter leadsToo nonemptyToo
        (Path.isAdmissible_of_byteSize_le (Text.byteSize_le_of_prefix begins)
          (FileSystem.isAdmissible_of_resolve leadsToo))
        form (filter_splitAt_trimmed _) (.inl isDirectory)
    have isBase : pattern.base = ⟨trimmed (dropCurrent text)⟩ := by
      rw [base, starts, if_neg (by simpa using nonemptyToo)]
    rw [isBase, starts]
    exact ⟨leadsThere, FileSystem.resolve_eq leadsThere⟩

/-- What a pattern that leads to a directory walks and matches. -/
theorem gives_of_directory_iff
    (leads : world.files.resolve world.cwd ⟨text⟩ = .ok place)
    (isDirectory : world.files.find? place = some .directory) :
    Gives environment world text files ↔
      ∃ glob, Glob.ofText (if dropCurrent text = [] then sheetsBelow else
          Glob.escape (trimmed (dropCurrent text)) ++ '/' :: sheetsBelow) = .ok glob ∧
        let pattern : FilePattern := ⟨⟨trimmed (dropCurrent text)⟩, glob, environment.cwd⟩
        files = pattern.select (world.files.walk world.cwd pattern.base moduleDirectory) := by
  refine gives_iff ?_
  unfold interpret
  rcases resolve_dropCurrent leads with ⟨empty, -⟩ | ⟨nonempty, leadsToo⟩
  · rw [empty]
    rfl
  · rw [if_neg (by simpa using nonempty), if_neg nonempty,
      FileSystem.kind?_of_resolve leadsToo isDirectory]
    rfl

/-! ## Directories -/

/-- A walk from a directory finds what is below it, as the glob of the pattern asks for it. -/
structure FindsBelow (text : Text) : Prop where
  /-- The glob has nothing to read otherwise. -/
  plain : '\\' ∉ text
  /-- The directory is not the root. -/
  proper : text ≠ [] → trimmed text ≠ []
  /-- The walk does not leave out the directory. -/
  outside : Path.shortName ⟨trimmed text⟩ ≠ moduleDirectory

/-- A style sheet stands below a directory, with no directory of modules between. -/
def IsSheetBelow (files : FileSystem) (directory place : Place) : Prop :=
  ∃ names content executable, place = directory ++ names ∧
    files.find? place = some (.file content executable) ∧
    EndsInSheet names ∧ moduleDirectory ∉ names.dropLast

/-- Files are just the style sheets below a directory, in order and each once. -/
structure ListsBelow (world : World) (directory : Place) (files : List Path) : Prop where
  strict : files.Pairwise fun path other => path.key < other.key
  once : (files.map (Place.ofPath world.cwd)).Nodup
  complete : ∀ place, place ∈ files.map (Place.ofPath world.cwd) ↔
    IsSheetBelow world.files directory place

/-- How a walk writes a file below a directory. -/
theorem text_join_trimmed
    (proper : trimmed text ≠ [])
    (areNames : ∀ name ∈ names, Path.isName name = true) :
    (Path.join ⟨trimmed text⟩ ⟨Text.join ['/'] names⟩).text =
      trimmed text ++ '/' :: Text.join ['/'] names := by
  have relative : Path.isAbsolute ⟨Text.join ['/'] names⟩ = false :=
    (Path.bare_join_names areNames).relative
  rw [Path.join, if_neg (by simp [relative]), if_neg (by simp [proper, getLast?_trimmed_ne])]

/-- The glob of a directory that the walk finds. -/
theorem exists_glob_of_findsBelow (finds : FindsBelow text) :
    ∃ glob, Glob.ofText (if text = [] then sheetsBelow else
        Glob.escape (trimmed text) ++ '/' :: sheetsBelow) = .ok glob ∧
      ∀ names : List Text, (∀ name ∈ names, Path.isName name = true) →
        (glob.doesMatch (Path.join ⟨trimmed text⟩ ⟨Text.join ['/'] names⟩).text = true ↔
          EndsInSheet names) := by
  have without {names : List Text} (areNames : ∀ name ∈ names, Path.isName name = true) :
      ∀ name ∈ names, '/' ∉ name := fun name among =>
    (Path.isName_iff.mp (areNames name among)).2.2
  by_cases empty : text = []
  · subst empty
    refine ⟨_, ofText_sheetsBelow, fun names areNames => ?_⟩
    have alone : Path.join ⟨trimmed []⟩ ⟨Text.join ['/'] names⟩ = ⟨Text.join ['/'] names⟩ := by
      simp [Path.join, trimmed, Text.dropEndWhile]
    rw [alone]
    exact doesMatch_sheetsBelow (without areNames)
  · obtain ⟨slashes, whole, -⟩ := exists_eq_trimmed_append text
    have plain : '\\' ∉ trimmed text := fun among =>
      finds.plain (whole ▸ List.mem_append_left slashes among)
    refine ⟨_, by rw [if_neg empty]; exact ofText_escape_sheetsBelow plain,
      fun names areNames => ?_⟩
    rw [text_join_trimmed (finds.proper empty) areNames]
    exact doesMatch_escape_sheetsBelow (without areNames)

/-- A walk that leaves out directories of modules finds the style sheets below a directory. -/
theorem mem_matched_below_iff
    (tree : world.files.IsTree)
    (leads : world.files.resolve world.cwd pattern.base = .ok place)
    (isDirectory : world.files.find? place = some .directory)
    (outside : pattern.start.shortName ≠ moduleDirectory)
    (fits : ∀ names : List Text, (∀ name ∈ names, Path.isName name = true) →
      (pattern.glob.doesMatch (pattern.start.join ⟨Text.join ['/'] names⟩).text = true ↔
        EndsInSheet names)) :
    path ∈ pattern.matched (world.files.walk world.cwd pattern.base moduleDirectory) ↔
      ∃ names content executable,
        world.files.find? (place ++ names) = some (.file content executable) ∧
          EndsInSheet names ∧ moduleDirectory ∉ names.dropLast ∧
          path = pattern.start.join ⟨Text.join ['/'] names⟩ := by
  have isOutside : pattern.base.shortName ≠ moduleDirectory := mt shortName_base.mp outside
  rw [mem_matched_iff tree.named leads isDirectory, and_iff_right isOutside]
  constructor
  · rintro ⟨⟨names, content, executable, among, notPruned, rfl⟩, isMatch⟩
    have areNames := tree.named.of_append among
    have ends := (fits names areNames).mp isMatch
    have proper : place ++ names ≠ [] := by
      obtain ⟨name, last, -⟩ := ends
      exact List.append_ne_nil_of_right_ne_nil _ fun empty => by simp [empty] at last
    exact ⟨names, content, executable, tree.find?_of_mem among proper, ends,
      fun inside => notPruned (List.dropLast_subset _ inside), rfl⟩
  · rintro ⟨names, content, executable, found, ends, notPruned, rfl⟩
    obtain ⟨name, last, isSheet⟩ := ends
    obtain ⟨front, rfl⟩ := List.getLast?_eq_some_iff.mp last
    have among := FileSystem.mem_entries_of_find? found (by simp)
    refine ⟨⟨_, content, executable, among, ?_, rfl⟩, ?_⟩
    · rw [List.dropLast_concat] at notPruned
      refine List.not_mem_append notPruned fun same => ?_
      -- A style sheet does not have the name of a directory of modules.
      rw [← List.mem_singleton.mp same] at isSheet
      exact absurd isSheet (by decide)
    · exact (fits _ (tree.named.of_append among)).mpr ⟨name, last, isSheet⟩

/-- What is selected from such a walk are just the style sheets below the directory. -/
theorem listsBelow_select
    {found : List Path}
    (isPlace : place = .ofPath world.cwd pattern.start)
    (named : world.files.IsNamed)
    (matched : ∀ path, path ∈ pattern.matched found ↔
      ∃ names content executable,
        world.files.find? (place ++ names) = some (.file content executable) ∧
          EndsInSheet names ∧ moduleDirectory ∉ names.dropLast ∧
          path = pattern.start.join ⟨Text.join ['/'] names⟩) :
    ListsBelow world place (pattern.select found) := by
  have lists := pattern.lists_select found
  have areNames {names : List Text} {entry : Entry}
      (stands : world.files.find? (place ++ names) = some entry)
      (ends : EndsInSheet names) : ∀ name ∈ names, Path.isName name = true := by
    obtain ⟨name, last, -⟩ := ends
    refine named.of_append (FileSystem.mem_entries_of_find? stands ?_)
    exact List.append_ne_nil_of_right_ne_nil _ fun empty => by simp [empty] at last
  have leads {names : List Text} (areNames : ∀ name ∈ names, Path.isName name = true) :
      Place.ofPath world.cwd (pattern.start.join ⟨Text.join ['/'] names⟩) = place ++ names := by
    rw [ofPath_join_names areNames, isPlace]
  refine ⟨lists.strict, ?_, fun there => ⟨fun listed => ?_, ?_⟩⟩
  · have distinct : (pattern.select found).Nodup := lists.strict.imp fun less same =>
      ne_of_lt less (congrArg Path.key same)
    refine distinct.map_on fun path listed other listedToo same => ?_
    obtain ⟨names, _, _, stands, ends, -, rfl⟩ := (matched path).mp (lists.sound _ listed)
    obtain ⟨others, _, _, standsToo, endsToo, -, rfl⟩ :=
      (matched other).mp (lists.sound _ listedToo)
    rw [leads (areNames stands ends), leads (areNames standsToo endsToo)] at same
    rw [List.append_cancel_left same]
  · obtain ⟨path, selected, rfl⟩ := List.mem_map.mp listed
    obtain ⟨names, content, executable, stands, ends, notPruned, rfl⟩ :=
      (matched path).mp (lists.sound path selected)
    rw [leads (areNames stands ends)]
    exact ⟨names, content, executable, rfl, stands, ends, notPruned⟩
  · rintro ⟨names, content, executable, rfl, stands, ends, notPruned⟩
    obtain ⟨other, selected, alike⟩ := lists.complete _
      ((matched _).mpr ⟨names, content, executable, stands, ends, notPruned, rfl⟩)
    refine List.mem_map.mpr ⟨other, selected, ?_⟩
    rw [Place.ofPath_eq_components, ← beq_iff_eq.mp alike, ← Place.ofPath_eq_components,
      leads (areNames stands ends)]

/-- A directory that the walk finds as it is written selects the style sheets below it. -/
theorem exists_gives_directory
    (tree : world.files.IsTree)
    (leads : world.files.resolve world.cwd ⟨text⟩ = .ok place)
    (isDirectory : world.files.find? place = some .directory)
    (finds : FindsBelow (dropCurrent text)) :
    ∃ files, Gives environment world text files ∧ ListsBelow world place files := by
  obtain ⟨glob, read, fits⟩ := exists_glob_of_findsBelow finds
  let pattern : FilePattern := ⟨⟨trimmed (dropCurrent text)⟩, glob, environment.cwd⟩
  obtain ⟨isBase, isPlace⟩ := @resolve_base_of_directory _ _ pattern _ rfl finds.proper leads
    isDirectory
  refine ⟨_, (gives_of_directory_iff leads isDirectory).mpr ⟨glob, read, rfl⟩, ?_⟩
  exact listsBelow_select isPlace tree.named fun _ =>
    mem_matched_below_iff tree isBase isDirectory finds.outside fits

/-- Nothing is found from a working directory that does not exist. -/
theorem walk_eq_nil
    (start : pattern.start.text = [])
    (notDirectory : world.files.find? world.cwd ≠ some .directory)
    (pruned : Text) :
    world.files.walk world.cwd pattern.base pruned = [] := by
  have enters (place : Place) : world.files.enter world.cwd ['.'] ≠ .ok place := by
    unfold FileSystem.enter
    cases found : world.files.find? world.cwd with
    | none => simp
    | some entry =>
        cases entry with
        | file content executable => simp
        | directory => exact absurd found notDirectory
  have follows : world.files.resolve world.cwd pattern.base =
      (world.files.enter world.cwd ['.']).bind .ok := by
    rw [base, if_pos (by simp [start])]
    rfl
  unfold FileSystem.walk
  rw [follows]
  cases entered : world.files.enter world.cwd ['.'] with
  | error problem => exact ite_self _
  | ok place => exact absurd entered (enters place)

/-- The root does not find what is below it. -/
theorem not_mem_matched_of_root
    (named : world.files.IsNamed)
    (start : pattern.start = ⟨[]⟩)
    (glob : pattern.glob = .treeInside :: Glob.sheetParts) :
    path ∉ pattern.matched (world.files.walk world.cwd pattern.base moduleDirectory) := by
  intro among
  by_cases isDirectory : world.files.find? world.cwd = some .directory
  · have followed : world.files.follow (.origin world.cwd pattern.start)
        ((Text.splitAt '/' pattern.start.text).filter Path.isSolid) = .ok world.cwd := by
      rw [start]
      rfl
    have leads := resolve_base followed isDirectory (by rw [start]; rfl)
    obtain ⟨-, ⟨names, _, _, entry, -, rfl⟩, isMatch⟩ :=
      (mem_matched_iff named leads isDirectory).mp among
    have relative : Path.isAbsolute ⟨Text.join ['/'] names⟩ = false :=
      (Path.bare_join_names (named.of_append entry)).relative
    have alone : Path.join ⟨[]⟩ ⟨Text.join ['/'] names⟩ = ⟨Text.join ['/'] names⟩ := by
      simp [Path.join]
    rw [start, glob, alone, not_doesMatch_treeInside (by simpa [Path.isAbsolute] using relative)]
      at isMatch
    cases isMatch
  · rw [walk_eq_nil (by rw [start]) isDirectory] at among
    cases among

/-- A directory that is not found as it is written selects nothing. -/
theorem not_gives_directory
    (tree : world.files.IsTree)
    (leads : world.files.resolve world.cwd ⟨text⟩ = .ok place)
    (isDirectory : world.files.find? place = some .directory)
    (misses : ¬ FindsBelow (dropCurrent text))
    (gives : Gives environment world text files) :
    files = [] := by
  obtain ⟨glob, read, rfl⟩ := (gives_of_directory_iff leads isDirectory).mp gives
  have nonempty : dropCurrent text ≠ [] := fun empty => misses <| by
    rw [empty]
    exact ⟨List.not_mem_nil, fun proper => absurd rfl proper, by decide⟩
  rw [if_neg nonempty] at read
  refine select_eq_nil fun path among => ?_
  by_cases proper : trimmed (dropCurrent text) = []
  · rw [proper, ofText_escape_sheetsBelow List.not_mem_nil] at read
    exact not_mem_matched_of_root tree.named (congrArg Path.mk proper)
      (Except.ok.inj read).symm among
  · let pattern : FilePattern := ⟨⟨trimmed (dropCurrent text)⟩, glob, environment.cwd⟩
    obtain ⟨isBase, -⟩ := @resolve_base_of_directory _ _ pattern _ rfl (fun _ => proper) leads
      isDirectory
    obtain ⟨outside, ⟨names, _, _, entry, -, rfl⟩, isMatch⟩ :=
      (mem_matched_iff tree.named isBase isDirectory).mp among
    have isPath := text_join_trimmed proper (tree.named.of_append entry)
    by_cases backslash : '\\' ∈ trimmed (dropCurrent text)
    · have breaks := Glob.breaksOff_of_ofText backslash (by simp [eq_comm]) read
      have unmatched := breaks.not_doesMatch ('/' :: Text.join ['/'] names)
      rw [← isPath] at unmatched
      exact Bool.eq_false_iff.mp unmatched isMatch
    · refine misses ⟨fun inside => ?_, fun _ => proper,
        mt (@shortName_base pattern).mpr outside⟩
      obtain ⟨slashes, whole, areSlashes⟩ := exists_eq_trimmed_append (dropCurrent text)
      rw [whole, List.mem_append, or_iff_right backslash] at inside
      exact absurd (areSlashes _ inside) (by decide)

/-! ## Files and directories -/

/-- A pattern that leads to a file selects just the file, if a walk from its directory writes it
as the pattern does, and if the glob has no backslash to read otherwise; else the file is not
selected, whatever else is. A pattern that leads to a directory selects the style sheets below
it, each once and in order, if it has no backslash and if it is neither the root nor named like
a directory of modules; else it selects nothing. -/
theorem selects_named
    (tree : world.files.IsTree)
    (leads : world.files.resolve world.cwd ⟨text⟩ = .ok place) :
    (∀ content executable, world.files.find? place = some (.file content executable) →
      (FindsFile (dropCurrent text) →
        world.files.resolve world.cwd ⟨dropCurrent text⟩ = .ok place ∧
          Gives environment world text [⟨dropCurrent text⟩]) ∧
        (¬ FindsFile (dropCurrent text) → ∀ files, Gives environment world text files →
          place ∉ files.map (Place.ofPath world.cwd))) ∧
      (world.files.find? place = some .directory →
        (FindsBelow (dropCurrent text) →
          ∃ files, Gives environment world text files ∧ ListsBelow world place files) ∧
        (¬ FindsBelow (dropCurrent text) → ∀ files, Gives environment world text files →
          files = [])) := by
  refine ⟨fun content executable found => ⟨fun finds => ?_, fun misses files gives => ?_⟩,
    fun isDirectory => ⟨fun finds => ?_, fun misses files gives => ?_⟩⟩
  · exact ⟨resolve_dropCurrent_file leads found, gives_file tree leads found finds⟩
  · exact not_gives_file tree leads found misses gives
  · exact exists_gives_directory tree leads isDirectory finds
  · exact not_gives_directory tree leads isDirectory misses gives

/-- A world with one style sheet in a directory. -/
def slashedWorld : World :=
  .ofFiles
    ⟨[(["w".toList], .directory), (["w".toList, "a".toList], .directory),
      (["w".toList, "a".toList, "x.css".toList], .file (.text []) false)]⟩
    ["w".toList] fun _ => .failed []

theorem selects_named_slashed :
    slashedWorld.files.IsTree ∧
      slashedWorld.files.resolve slashedWorld.cwd "./a/x.css" =
        .ok ["w".toList, "a".toList, "x.css".toList] ∧
      slashedWorld.files.resolve slashedWorld.cwd "a//" = .ok ["w".toList, "a".toList] ∧
      Gives ⟨"/w", [], none⟩ slashedWorld "./a/x.css" ["a/x.css"] ∧
      ∃ files, Gives ⟨"/w", [], none⟩ slashedWorld "a//" files ∧
        ListsBelow slashedWorld ["w".toList, "a".toList] files := by
  have tree : slashedWorld.files.IsTree := by decide
  obtain ⟨ofFile, -⟩ := @selects_named ⟨"/w", [], none⟩ slashedWorld "./a/x.css"
    ["w".toList, "a".toList, "x.css".toList] tree rfl
  obtain ⟨-, ofDirectory⟩ := @selects_named ⟨"/w", [], none⟩ slashedWorld "a//"
    ["w".toList, "a".toList] tree rfl
  refine ⟨tree, rfl, rfl, ?_, ?_⟩
  · exact ((ofFile (.text []) false rfl).1 ⟨by decide, rfl, by decide, by decide⟩).2
  · exact (ofDirectory rfl).1 ⟨by decide, fun _ => by decide, by decide⟩

/-- With two slashes before its name the style sheet does not select itself. -/
theorem slashed_selects_nothing :
    slashedWorld.files.IsTree ∧
      slashedWorld.files.resolve slashedWorld.cwd "a//x.css" =
        .ok ["w".toList, "a".toList, "x.css".toList] ∧
      slashedWorld.files.find? ["w".toList, "a".toList, "x.css".toList] =
        some (.file (.text []) false) ∧
      Gives ⟨"/w", [], none⟩ slashedWorld "a//x.css" [] ∧
      ∀ path, ¬ Gives ⟨"/w", [], none⟩ slashedWorld "a//x.css" [path] := by
  let pattern : FilePattern := ⟨"a", "a//x.css".toList.map Glob.escapedPart, "/w"⟩
  have none : pattern.select
      (slashedWorld.files.walk slashedWorld.cwd pattern.base moduleDirectory) = [] := by
    decide +kernel
  refine ⟨by decide, rfl, rfl, ⟨pattern, rfl, congrArg (·, slashedWorld) none⟩, ?_⟩
  rintro path ⟨other, isOther, isPath⟩
  obtain rfl : pattern = other := Except.ok.inj (Prod.mk.inj isOther).1
  have same : pattern.select
      (slashedWorld.files.walk slashedWorld.cwd pattern.base moduleDirectory) = [path] :=
    (Prod.mk.inj isPath).1
  rw [none] at same
  cases same

end FilePattern
end StyleTypings
