import StyleTypings.Files.FileSystem

/-!
# Where paths lead

A path that can be resolved leads to the place that its parts spell out from the
working directory, whatever files there are. So two paths of one file spell out
one place, however they are written.
-/

namespace StyleTypings

/-- The place that one part leads to. -/
def Place.after (place : Place) (part : Text) : Place :=
  if Path.isIdle part then
    place
  else if part = ['.', '.'] then
    place.dropLast
  else
    place ++ [part]

theorem Place.ofPath_eq_foldl (cwd : Place) (path : Path) :
    Place.ofPath cwd path =
      (Text.splitAt '/' path.text).foldl Place.after
        (if path.isAbsolute then [] else cwd) := rfl

namespace FileSystem

theorem enter_eq
    {files : FileSystem}
    {place next : Place}
    {part : Text}
    (entered : files.enter place part = .ok next) :
    next = place.after part := by
  unfold enter at entered
  unfold Place.after
  split at entered
  · exact absurd entered nofun
  · exact absurd entered nofun
  · split
    · next idle =>
        rw [if_pos idle] at entered
        exact (Except.ok.inj entered).symm
    · next idle =>
        rw [if_neg idle] at entered
        split
        · next up =>
            rw [if_pos up] at entered
            exact (Except.ok.inj entered).symm
        · next up =>
            rw [if_neg up] at entered
            split at entered
            · exact absurd entered nofun
            · exact (Except.ok.inj entered).symm

theorem follow_eq
    {files : FileSystem}
    {place reached : Place}
    {parts : List Text}
    (followed : files.follow place parts = .ok reached) :
    reached = parts.foldl Place.after place := by
  induction parts generalizing place with
  | nil => exact (Except.ok.inj followed).symm
  | cons part rest inductionHypothesis =>
      rw [follow] at followed
      cases entered : files.enter place part with
      | error problem =>
          rw [entered] at followed
          exact absurd followed nofun
      | ok next =>
          rw [entered] at followed
          rw [List.foldl_cons, ← enter_eq entered]
          exact inductionHypothesis followed

/-- A path leads to the place it spells out, or nowhere. -/
theorem resolve_eq
    {files : FileSystem}
    {cwd place : Place}
    {path : Path}
    (resolved : files.resolve cwd path = .ok place) :
    place = Place.ofPath cwd path := by
  unfold resolve at resolved
  split at resolved
  · exact absurd resolved nofun
  · split at resolved
    · exact absurd resolved nofun
    · exact follow_eq resolved

/-- A path that is too long leads nowhere. -/
theorem isAdmissible_of_resolve
    {files : FileSystem}
    {cwd place : Place}
    {path : Path}
    (resolved : files.resolve cwd path = .ok place) :
    path.isAdmissible = true := by
  unfold resolve at resolved
  split at resolved
  · exact absurd resolved nofun
  · split at resolved
    · exact absurd resolved nofun
    · next admissible => simpa using admissible

/-- What a path names stands at the place it spells out. -/
theorem entryAt_eq
    {files : FileSystem}
    {cwd : Place}
    {path : Path}
    {entry : Entry}
    (named : files.entryAt cwd path = .ok entry) :
    files.resolve cwd path = .ok (Place.ofPath cwd path) ∧
      files.find? (Place.ofPath cwd path) = some entry := by
  unfold entryAt at named
  cases resolved : files.resolve cwd path with
  | error problem =>
      rw [resolved] at named
      exact absurd named nofun
  | ok place =>
      rw [resolved] at named
      have spelled := resolve_eq resolved
      subst spelled
      cases found : files.find? (Place.ofPath cwd path) with
      | none =>
          simp only [bind, Except.bind, found] at named
          exact absurd named nofun
      | some other =>
          simp only [bind, Except.bind, found] at named
          exact ⟨rfl, congrArg some (Except.ok.inj named)⟩

/-- A text that is read is that of the file at the place the path spells out. -/
theorem read_eq
    {files : FileSystem}
    {cwd : Place}
    {path : Path}
    {text : Text}
    (wasRead : files.read cwd path = .ok text) :
    files.resolve cwd path = .ok (Place.ofPath cwd path) ∧
      ∃ executable,
        files.find? (Place.ofPath cwd path) = some (.file (.text text) executable) := by
  unfold read at wasRead
  cases named : files.entryAt cwd path with
  | error problem =>
      rw [named] at wasRead
      exact absurd wasRead nofun
  | ok entry =>
      rw [named] at wasRead
      obtain ⟨resolved, found⟩ := entryAt_eq named
      refine ⟨resolved, ?_⟩
      rcases entry with ⟨content, executable⟩ | _
      · cases content with
        | text value =>
            obtain rfl : value = text := Except.ok.inj wasRead
            exact ⟨executable, found⟩
        | binary => exact absurd wasRead nofun
      · exact absurd wasRead nofun

/-- A path of a regular file spells out the place of one. -/
theorem find?_of_kind?
    {files : FileSystem}
    {cwd : Place}
    {path : Path}
    {executable : Bool}
    (named : files.kind? cwd path = some (.file executable)) :
    ∃ content, files.find? (Place.ofPath cwd path) = some (.file content executable) := by
  unfold kind? at named
  split at named
  · next entry found =>
      obtain ⟨-, stands⟩ := entryAt_eq found
      cases entry with
      | directory => exact absurd named nofun
      | file content other =>
          obtain rfl : other = executable := FileKind.file.inj (Option.some.inj named)
          exact ⟨content, stands⟩
  · exact absurd named nofun

/-- Only a path that is short enough names anything. -/
theorem isAdmissible_of_kind?
    {files : FileSystem}
    {cwd : Place}
    {path : Path}
    {kind : FileKind}
    (named : files.kind? cwd path = some kind) :
    path.isAdmissible = true := by
  unfold kind? at named
  split at named
  · next found => exact isAdmissible_of_resolve (entryAt_eq found).1
  · exact absurd named nofun

end FileSystem

/-! ## Alike paths -/

/-- The place that one component leads to. -/
def Place.afterComponent (place : Place) : PathComponent → Place
  | .root => []
  | .current => place
  | .parent => place.dropLast
  | .normal name => place ++ [name]

/-- Parts that are not idle lead where their components lead. -/
theorem Place.foldl_componentOf (place : Place) (parts : List Text) :
    ((parts.filter fun part => !Path.isIdle part).map Path.componentOf).foldl afterComponent
        place =
      parts.foldl after place := by
  induction parts generalizing place with
  | nil => rfl
  | cons part rest inductionHypothesis =>
      rw [List.foldl_cons]
      cases idle : Path.isIdle part with
      | true => simp [after, idle, inductionHypothesis]
      | false =>
          have step : afterComponent place (Path.componentOf part) = place.after part := by
            by_cases up : part = ['.', '.']
            · subst up
              rfl
            · simp [after, idle, up, Path.componentOf, afterComponent]
          simp [idle, inductionHypothesis, step]

/-- A path spells out the place that its components lead to. -/
theorem Place.ofPath_eq_components (cwd : Place) (path : Path) :
    ofPath cwd path = path.components.foldl afterComponent cwd := by
  rw [ofPath_eq_foldl, Path.components, List.foldl_append, foldl_componentOf]
  obtain ⟨text⟩ := path
  unfold Path.parts Path.isAbsolute
  fun_cases Path.splitLead text with
  | case1 body => simp [Text.splitAt, Path.leadComponents, afterComponent, after, Path.isIdle]
  | case2 => simp [Text.splitAt, Path.leadComponents, afterComponent, after, Path.isIdle]
  | case3 body => simp [Text.splitAt, Path.leadComponents, afterComponent, after, Path.isIdle]
  | case4 body absolute =>
      have relative : text.head? ≠ some '/' := by
        intro first
        obtain ⟨body, rfl⟩ := List.head?_eq_some_iff.mp first
        exact absolute body rfl
      simp [relative, Path.leadComponents]

theorem Place.ofPath_eq_of_alike
    {path other : Path}
    (alike : path.alike other = true)
    (cwd : Place) :
    ofPath cwd path = ofPath cwd other := by
  rw [ofPath_eq_components, ofPath_eq_components, beq_iff_eq.mp alike]

/-! ## Plain paths -/

/-- An absolute path that never goes up. -/
structure Path.IsPlain (path : Path) : Prop where
  absolute : path.isAbsolute = true
  descends : ∀ part ∈ path.parts, part ≠ ['.', '.']

/-- The names of a path: its parts that are not idle. -/
def Path.names (path : Path) : List Text :=
  path.parts.filter fun part => !isIdle part

/-- Parts that never go up lead down by their names. -/
theorem Place.foldl_after
    {parts : List Text}
    (descends : ∀ part ∈ parts, part ≠ ['.', '.'])
    (place : Place) :
    parts.foldl after place = place ++ parts.filter fun part => !Path.isIdle part := by
  induction parts generalizing place with
  | nil => simp
  | cons part rest inductionHypothesis =>
      have first := descends part List.mem_cons_self
      rw [List.foldl_cons,
        inductionHypothesis fun other among => descends other (List.mem_cons_of_mem _ among)]
      cases idle : Path.isIdle part with
      | true => simp [after, idle]
      | false => simp [after, idle, first]

theorem Path.IsPlain.exists_body {path : Path} (plain : path.IsPlain) :
    ∃ body, path.text = '/' :: body := by
  have absolute := plain.absolute
  unfold Path.isAbsolute at absolute
  cases text : path.text with
  | nil =>
      rw [text] at absolute
      exact absurd absolute nofun
  | cons c body =>
      rw [text] at absolute
      exact ⟨body, by simpa using absolute⟩

/-- A plain path leads to the place of its names. -/
theorem Path.IsPlain.ofPath_eq {path : Path} (plain : path.IsPlain) (cwd : Place) :
    Place.ofPath cwd path = path.names := by
  obtain ⟨body, text⟩ := plain.exists_body
  have parts : path.parts = Text.splitAt '/' body := by
    unfold Path.parts
    rw [text]
    rfl
  have descends := plain.descends
  rw [Place.ofPath_eq_foldl, if_pos plain.absolute, text]
  have first : Text.splitAt '/' ('/' :: body) = [] :: Text.splitAt '/' body := by
    rw [Text.splitAt, if_pos rfl]
  rw [first, List.foldl_cons, ← parts, Place.foldl_after descends]
  rfl

theorem Path.IsPlain.components_eq {path : Path} (plain : path.IsPlain) :
    path.components = .root :: path.names.map .normal := by
  obtain ⟨body, text⟩ := plain.exists_body
  unfold Path.components
  rw [text]
  refine congrArg (PathComponent.root :: ·) (List.map_congr_left fun part present => ?_)
  have among := (List.mem_filter.mp present).1
  unfold componentOf
  rw [if_neg]
  simpa using plain.descends part among

/-- Plain paths of one place have the same components. -/
theorem Path.IsPlain.components_eq_of_ofPath_eq
    {left right : Path}
    {cwd : Place}
    (leftPlain : left.IsPlain)
    (rightPlain : right.IsPlain)
    (same : Place.ofPath cwd left = Place.ofPath cwd right) :
    left.components = right.components := by
  rw [leftPlain.ofPath_eq, rightPlain.ofPath_eq] at same
  rw [leftPlain.components_eq, rightPlain.components_eq, same]

end StyleTypings
