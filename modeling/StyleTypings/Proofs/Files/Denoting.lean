import StyleTypings.Proofs.Files.Anchoring
import StyleTypings.Proofs.Glob.Escaping

/-!
# What a pattern walks and matches

A pattern that leads somewhere is read without leading full stops, which leads to the same place.
It then walks from a start, and the glob is matched against paths that the walk puts together
from the start as it is written and the names below it. Here this is said for all patterns whose
start leads to a directory, in a file system that is a tree.
-/

namespace StyleTypings

/-! ## File systems as trees -/

/-- Files and directories stand in directories, and there is one at a place. -/
structure FileSystem.IsTree (files : FileSystem) : Prop where
  named : files.IsNamed
  once : (files.entries.map Prod.fst).Nodup
  above : ∀ entry ∈ files.entries, files.find? entry.1.dropLast = some .directory

instance (files : FileSystem) : Decidable files.IsTree :=
  decidable_of_iff
    (files.IsNamed ∧ (files.entries.map Prod.fst).Nodup ∧
      ∀ entry ∈ files.entries, files.find? entry.1.dropLast = some .directory)
    ⟨fun ⟨named, once, above⟩ => ⟨named, once, above⟩,
      fun ⟨named, once, above⟩ => ⟨named, once, above⟩⟩

namespace FileSystem

variable {files : FileSystem} {cwd place : Place} {path : Path} {entry : Entry}

theorem mem_entries_of_find?
    (found : files.find? place = some entry)
    (proper : place ≠ []) :
    (place, entry) ∈ files.entries := by
  rw [find?, if_neg (by simpa using proper)] at found
  obtain ⟨⟨there, other⟩, first, rfl⟩ := Option.map_eq_some_iff.mp found
  have same : there = place := by simpa using List.find?_some first
  exact same ▸ List.mem_of_find?_eq_some first

/-- What is listed for a place stands there. -/
theorem IsTree.find?_of_mem
    (tree : files.IsTree)
    (among : (place, entry) ∈ files.entries)
    (proper : place ≠ []) :
    files.find? place = some entry := by
  have isSome : (files.find? place).isSome = true := by
    rw [find?, if_neg (by simpa using proper), Option.isSome_map, List.find?_isSome]
    exact ⟨_, among, beq_self_eq_true place⟩
  obtain ⟨other, found⟩ := Option.isSome_iff_exists.mp isSome
  have listed := mem_entries_of_find? found proper
  rw [found, (Prod.mk.inj (List.inj_on_of_nodup_map tree.once listed among rfl)).2]

/-- A place with something at it stands in a directory. -/
theorem IsTree.above_of_find?
    (tree : files.IsTree)
    (found : files.find? place = some entry) :
    files.find? place.dropLast = some .directory := by
  by_cases root : place = []
  · rw [root]
    rfl
  · exact tree.above _ (mem_entries_of_find? found root)

theorem kind?_of_resolve
    (leads : files.resolve cwd path = .ok place)
    (found : files.find? place = some entry) :
    files.kind? cwd path = some entry.kind := by
  have isEntry : files.entryAt cwd path = .ok entry := by
    unfold entryAt
    rw [leads]
    simp only [bind, Except.bind, found]
  rw [kind?, isEntry]

/-- A path to a file ends in the name of the file. -/
theorem IsTree.eq_append_lastPart
    {directory : Path}
    (tree : files.IsTree)
    (leads : files.resolve cwd path = .ok place)
    (notDirectory : files.find? place ≠ some .directory)
    (isParent : path.parent?.getD ⟨[]⟩ = directory) :
    place = .ofPath cwd directory ++ [path.lastPart] := by
  have solid := Path.isIdle_lastPart_of_resolve leads notDirectory
  obtain ⟨-, isDirectory⟩ := follow_parent leads solid isParent
  have same := resolve_eq leads
  rw [Place.ofPath_eq_components, Path.components_eq_append solid, isParent, List.foldl_append,
    ← Place.ofPath_eq_components, List.foldl_cons, List.foldl_nil] at same
  have name : path.lastPart ≠ ['.', '.'] := by
    intro up
    rw [up] at same
    exact notDirectory (same ▸ tree.above_of_find? isDirectory)
  rwa [Path.componentOf, if_neg (by simpa using name)] at same

end FileSystem

/-- Names lead down. -/
theorem Place.foldl_normal (place : Place) (names : List Text) :
    (names.map .normal).foldl afterComponent place = place ++ names := by
  induction names generalizing place with
  | nil => simp
  | cons name rest inductionHypothesis =>
      rw [List.map_cons, List.foldl_cons, inductionHypothesis]
      simp [afterComponent]

theorem FileSystem.follow_of_resolve
    {files : FileSystem}
    {cwd place : Place}
    {path : Path}
    (leads : files.resolve cwd path = .ok place) :
    files.follow (.origin cwd path) (Text.splitAt '/' path.text) = .ok place := by
  unfold resolve at leads
  split at leads
  · cases leads
  · split at leads
    · cases leads
    · exact leads

theorem Text.byteSize_le_of_suffix {text rest : Text} (ends : rest <:+ text) :
    rest.byteSize ≤ text.byteSize := by
  obtain ⟨front, rfl⟩ := ends
  rw [byteSize_append]
  exact Nat.le_add_left _ _

theorem Text.byteSize_le_of_prefix {text front : Text} (begins : front <+: text) :
    front.byteSize ≤ text.byteSize := by
  obtain ⟨rest, rfl⟩ := begins
  rw [byteSize_append]
  exact Nat.le_add_right _ _

/-- A path is short enough if a longer one is. -/
theorem Path.isAdmissible_of_byteSize_le
    {path other : Path}
    (shorter : path.text.byteSize ≤ other.text.byteSize)
    (admissible : other.isAdmissible = true) :
    path.isAdmissible = true := by
  unfold isAdmissible at admissible ⊢
  rw [decide_eq_true_eq] at admissible ⊢
  exact shorter.trans admissible

theorem Path.filter_isSolid_eq_nil
    {parts : List Text}
    (idle : ∀ part ∈ parts, isIdle part = true) :
    parts.filter isSolid = [] :=
  List.filter_eq_nil_iff.mpr fun part among => by simp [isSolid, idle part among]

namespace FilePattern

/-! ## Leading full stops -/

theorem exists_splitAt_dropWhile (text : Text) :
    ∃ idle, (∀ part ∈ idle, Path.isIdle part = true) ∧
      Text.splitAt '/' text = idle ++ Text.splitAt '/' (text.dropWhile (· == '/')) := by
  induction text with
  | nil => exact ⟨[], nofun, rfl⟩
  | cons c rest inductionHypothesis =>
      by_cases slash : c = '/'
      · obtain ⟨idle, areIdle, split⟩ := inductionHypothesis
        subst slash
        refine ⟨[] :: idle, List.forall_mem_cons.mpr ⟨rfl, areIdle⟩, ?_⟩
        rw [Text.splitAt, if_pos rfl, split]
        rfl
      · refine ⟨[], nofun, ?_⟩
        rw [List.dropWhile_cons_of_neg (by simpa using slash), List.nil_append]

/-- What is dropped in front of a pattern are idle parts. -/
theorem exists_splitAt_dropCurrentFrom (bound : Nat) (text : Text) :
    ∃ idle, (∀ part ∈ idle, Path.isIdle part = true) ∧
      Text.splitAt '/' text = idle ++ Text.splitAt '/' (dropCurrentFrom bound text) := by
  induction bound generalizing text with
  | zero => exact ⟨[], nofun, rfl⟩
  | succ bound inductionHypothesis =>
      unfold dropCurrentFrom
      split
      · next rest =>
          obtain ⟨slashes, areSlashes, first⟩ := exists_splitAt_dropWhile rest
          obtain ⟨idle, areIdle, behind⟩ := inductionHypothesis (rest.dropWhile (· == '/'))
          refine ⟨['.'] :: (slashes ++ idle), ?_, ?_⟩
          · exact List.forall_mem_cons.mpr ⟨rfl, fun part among =>
              (List.mem_append.mp among).elim (areSlashes part) (areIdle part)⟩
          · have split : Text.splitAt '/' ('.' :: '/' :: rest) =
                ['.'] :: Text.splitAt '/' rest := rfl
            rw [split, first, behind, List.cons_append, List.append_assoc]
      · exact ⟨[], nofun, rfl⟩

theorem dropCurrentFrom_suffix (bound : Nat) (text : Text) :
    dropCurrentFrom bound text <:+ text := by
  induction bound generalizing text with
  | zero => exact List.suffix_refl text
  | succ bound inductionHypothesis =>
      unfold dropCurrentFrom
      split
      · next rest =>
          exact (inductionHypothesis _).trans ((List.dropWhile_suffix _).trans
            ((List.suffix_cons _ _).trans (List.suffix_cons _ _)))
      · exact List.suffix_refl text

theorem isAbsolute_dropCurrentFrom (bound : Nat) (text : Text) :
    Path.isAbsolute ⟨dropCurrentFrom bound text⟩ = Path.isAbsolute ⟨text⟩ := by
  induction bound generalizing text with
  | zero => rfl
  | succ bound inductionHypothesis =>
      unfold dropCurrentFrom
      split
      · next rest =>
          rw [inductionHypothesis]
          have noSlash := List.head?_dropWhile_not (· == '/') rest
          have text : Path.isAbsolute ⟨'.' :: '/' :: rest⟩ = false := rfl
          rw [text, Path.isAbsolute]
          cases first : (rest.dropWhile (· == '/')).head? with
          | none => rfl
          | some c =>
              rw [first] at noSlash
              simpa using noSlash
      · rfl

/-- Without leading full stops a path leads to the same place, unless nothing is left. -/
theorem resolve_dropCurrent
    {files : FileSystem}
    {cwd place : Place}
    {text : Text}
    (leads : files.resolve cwd ⟨text⟩ = .ok place) :
    (dropCurrent text = [] ∧ place = cwd ∧ files.find? cwd = some .directory) ∨
      dropCurrent text ≠ [] ∧ files.resolve cwd ⟨dropCurrent text⟩ = .ok place := by
  obtain ⟨idle, areIdle, split⟩ := exists_splitAt_dropCurrentFrom text.length text
  have form := isAbsolute_dropCurrentFrom text.length text
  have inside := dropCurrentFrom_suffix text.length text
  unfold dropCurrent
  generalize dropCurrentFrom text.length text = rest at split form inside ⊢
  have solid : (Text.splitAt '/' text).filter Path.isSolid =
      (Text.splitAt '/' rest).filter Path.isSolid := by
    rw [split, List.filter_append, Path.filter_isSolid_eq_nil areIdle, List.nil_append]
  have admissible := FileSystem.isAdmissible_of_resolve leads
  have same := FileSystem.resolve_eq leads
  by_cases empty : rest = ['.'] ∨ rest = []
  · have followed := FileSystem.follow_of_resolve leads
    have relative : Path.isAbsolute ⟨text⟩ = false := by
      rw [← form]
      rcases empty with rfl | rfl <;> rfl
    have none : (Text.splitAt '/' text).filter Path.isSolid = [] := by
      rw [solid]
      rcases empty with rfl | rfl <;> rfl
    have isCwd : Place.origin cwd ⟨text⟩ = cwd := by rw [Place.origin, relative]; rfl
    refine .inl ⟨by rcases empty with rfl | rfl <;> rfl, ?_, ?_⟩
    · have stays := FileSystem.follow_filter followed
      rw [none, isCwd] at stays
      exact (Except.ok.inj stays).symm
    · obtain ⟨first, others, parts⟩ :=
        List.exists_cons_of_ne_nil (Text.splitAt_ne_nil '/' text)
      rw [parts, isCwd] at followed
      exact FileSystem.find?_of_follow_cons followed
  · obtain ⟨noStop, nonempty⟩ := not_or.mp empty
    refine .inr ⟨by simpa [noStop] using nonempty, ?_⟩
    rw [if_neg noStop]
    refine FileSystem.resolve_of_filter leads nonempty ?_ form solid.symm ?_
    · exact Path.isAdmissible_of_byteSize_le (Text.byteSize_le_of_suffix inside) admissible
    · refine or_iff_not_imp_left.mpr fun notDirectory => ?_
      have ends : Path.lastPart ⟨text⟩ = Path.lastPart ⟨rest⟩ := by
        rw [Path.splitAt_eq ⟨rest⟩, ← List.append_assoc] at split
        exact Path.lastPart_of_splitAt split
      exact ends ▸ Path.isIdle_lastPart_of_resolve leads notDirectory

/-! ## What a text selects -/

/-- A text is a pattern, and the pattern selects some files. -/
def Gives
    (environment : Environment)
    (world : World)
    (text : Text)
    (files : List Path) : Prop :=
  ∃ pattern, (ofText environment text).run world = (.ok pattern, world) ∧
    pattern.files.run world = (files, world)

variable {environment : Environment} {world : World} {text : Text} {files : List Path}

/-- The pattern of a text walks and matches as the kind of what it names says. -/
theorem gives_iff {start : Path} {written : Text}
    (interpreted : interpret (dropCurrent text)
      (world.files.kind? world.cwd ⟨dropCurrent text⟩) = (start, written)) :
    Gives environment world text files ↔
      ∃ glob, Glob.ofText written = .ok glob ∧
        let pattern : FilePattern := ⟨start, glob, environment.cwd⟩
        files = pattern.select (world.files.walk world.cwd pattern.base moduleDirectory) := by
  have asked : (Action.kind? ⟨dropCurrent text⟩).run world =
      (world.files.kind? world.cwd ⟨dropCurrent text⟩, world) := rfl
  unfold Gives
  cases read : Glob.ofText written with
  | error problem =>
      have ran : (ofText environment text).run world =
          (.error ⟨dropCurrent text, written, problem⟩, world) := by
        unfold ofText
        rw [Action.run_bind, asked]
        simp only [interpreted, read]
        rfl
      simp [ran]
  | ok glob =>
      have ran : (ofText environment text).run world =
          (.ok ⟨start, glob, environment.cwd⟩, world) := by
        unfold ofText
        rw [Action.run_bind, asked]
        simp only [interpreted, read]
        rfl
      rw [ran]
      constructor
      · rintro ⟨pattern, isPattern, isFiles⟩
        obtain rfl := Except.ok.inj (Prod.mk.inj isPattern).1
        exact ⟨glob, rfl, (Prod.mk.inj isFiles).1.symm⟩
      · rintro ⟨_, same, rfl⟩
        obtain rfl := Except.ok.inj same
        exact ⟨_, rfl, rfl⟩

variable {pattern : FilePattern} {place : Place} {path : Path} {names : List Text}

/-- However the walk starts, a file is matched as the start and the names below it. -/
theorem walked_join (areNames : ∀ name ∈ names, Path.isName name = true) :
    pattern.walked (pattern.base.join ⟨Text.join ['/'] names⟩) =
      pattern.start.join ⟨Text.join ['/'] names⟩ := by
  by_cases empty : pattern.start.text = []
  · rw [walked_of_isEmpty empty areNames]
    simp [Path.join, empty]
  · obtain ⟨isStart, isPath⟩ := walked_of_ne_nil empty (pattern.base.join ⟨Text.join ['/'] names⟩)
    rw [isPath, isStart]

theorem mem_matched_iff
    (named : world.files.IsNamed)
    (leads : world.files.resolve world.cwd pattern.base = .ok place)
    (isDirectory : world.files.find? place = some .directory) :
    path ∈ pattern.matched (world.files.walk world.cwd pattern.base moduleDirectory) ↔
      pattern.base.shortName ≠ moduleDirectory ∧
        (∃ names content executable,
          (place ++ names, .file content executable) ∈ world.files.entries ∧
            moduleDirectory ∉ names ∧ path = pattern.start.join ⟨Text.join ['/'] names⟩) ∧
        pattern.glob.doesMatch path.text = true := by
  rw [matched, List.mem_filter, List.mem_map]
  simp only [mem_walk_of_isDirectory leads isDirectory]
  constructor
  · rintro ⟨⟨_, ⟨kept, names, content, executable, among, notPruned, rfl⟩, rfl⟩, isMatch⟩
    refine ⟨kept, ⟨names, content, executable, among, notPruned, ?_⟩, isMatch⟩
    exact walked_join (named.of_append among)
  · rintro ⟨kept, ⟨names, content, executable, among, notPruned, rfl⟩, isMatch⟩
    exact ⟨⟨_, ⟨kept, names, content, executable, among, notPruned, rfl⟩,
      walked_join (named.of_append among)⟩, isMatch⟩

theorem select_eq_nil
    {found : List Path}
    (none : ∀ path, path ∉ pattern.matched found) :
    pattern.select found = [] :=
  List.eq_nil_iff_forall_not_mem.mpr fun path listed =>
    none path ((pattern.lists_select found).sound path listed)

/-- If only one path is matched, it is all that is selected. -/
theorem select_eq_singleton
    {found : List Path}
    (isMatched : path ∈ pattern.matched found)
    (only : ∀ other ∈ pattern.matched found, other = path) :
    pattern.select found = [path] := by
  have lists := pattern.lists_select found
  have same (other : Path) (listed : other ∈ pattern.select found) : other = path :=
    only other (lists.sound other listed)
  obtain ⟨other, listed, -⟩ := lists.complete path isMatched
  have strict := lists.strict
  revert same listed strict
  match pattern.select found with
  | [] => exact fun _ listed => absurd listed List.not_mem_nil
  | [first] => exact fun same _ _ => by rw [same first List.mem_cons_self]
  | first :: second :: others =>
      intro same _ strict
      have isFirst := same first List.mem_cons_self
      have isSecond := same second (List.mem_cons_of_mem _ List.mem_cons_self)
      have before := (List.pairwise_cons.mp strict).1 second List.mem_cons_self
      rw [isFirst, isSecond] at before
      exact absurd before (lt_irrefl _)

/-! ## Where the walk starts -/

theorem shortName_base :
    pattern.base.shortName = moduleDirectory ↔ pattern.start.shortName = moduleDirectory := by
  unfold base
  split
  · next empty =>
      have start : pattern.start = ⟨[]⟩ := congrArg Path.mk (List.isEmpty_iff.mp empty)
      rw [start]
      decide
  · exact Iff.rfl

/-- The walk of a pattern starts where its start leads. -/
theorem resolve_base
    (followed : world.files.follow (.origin world.cwd pattern.start)
      ((Text.splitAt '/' pattern.start.text).filter Path.isSolid) = .ok place)
    (isDirectory : world.files.find? place = some .directory)
    (admissible : pattern.start.isAdmissible = true) :
    world.files.resolve world.cwd pattern.base = .ok place := by
  unfold base
  by_cases empty : pattern.start.text = []
  · have here : world.cwd = place := by
      rw [Place.origin, Path.isAbsolute, empty] at followed
      exact Except.ok.inj followed
    have stays := FileSystem.enter_of_isIdle isDirectory (rfl : Path.isIdle ['.'] = true)
    rw [if_pos (by simp [empty]), here]
    change (world.files.enter place ['.']).bind _ = _
    rw [stays]
    rfl
  · rw [if_neg (by simp [empty])]
    unfold FileSystem.resolve
    rw [if_neg (by simp [empty]), if_neg (by simp [admissible])]
    exact FileSystem.follow_of_filter followed (.inl isDirectory)

/-- From a start names lead down. -/
theorem ofPath_join_names
    (areNames : ∀ name ∈ names, Path.isName name = true)
    (cwd : Place)
    (start : Path) :
    Place.ofPath cwd (start.join ⟨Text.join ['/'] names⟩) = Place.ofPath cwd start ++ names := by
  have joined := @Place.ofPath_join start ⟨Text.join ['/'] names⟩ cwd
    (Path.bare_join_names areNames).relative
  rw [joined, Place.ofPath_eq_components _ ⟨_⟩, Path.components_join_names areNames,
    Place.foldl_normal]

end FilePattern
end StyleTypings
