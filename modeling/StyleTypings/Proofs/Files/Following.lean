import StyleTypings.Proofs.Files.Starting

/-!
# Paths with the same components

Idle parts do not matter for where a path leads, except that they need a directory to stand in.
So alike paths lead to the same place, and what is left of a path behind a directory leads back
to the path when it is joined to the directory again.
-/

namespace StyleTypings

/-! ## Components and parts -/

namespace Path

/-- The part of a component that is no lead. -/
def partOf? : PathComponent → Option Text
  | .root => none
  | .current => none
  | .parent => some ['.', '.']
  | .normal name => some name

theorem partOf?_componentOf (part : Text) : partOf? (componentOf part) = some part := by
  by_cases up : part = ['.', '.']
  · subst up
    rfl
  · simp [componentOf, up, partOf?]

theorem filterMap_partOf? (parts : List Text) :
    (parts.map componentOf).filterMap partOf? = parts := by
  induction parts with
  | nil => rfl
  | cons part rest inductionHypothesis =>
      rw [List.map_cons, List.filterMap_cons_some (partOf?_componentOf part), inductionHypothesis]

/-- The parts of a whole text that are not idle are those behind its lead. -/
theorem filter_splitAt (path : Path) :
    (Text.splitAt '/' path.text).filter isSolid = path.parts.filter isSolid := by
  obtain ⟨text⟩ := path
  unfold parts
  fun_cases splitLead text with
  | case1 body => rfl
  | case2 => rfl
  | case3 body => simp [Text.splitAt, isSolid, isIdle]
  | case4 body => rfl

/-- The parts of a path that are not idle are those of its components. -/
theorem filterMap_components (path : Path) :
    path.components.filterMap partOf? = (Text.splitAt '/' path.text).filter isSolid := by
  have lead : (leadComponents (splitLead path.text).1).filterMap partOf? = [] := by
    rcases splitLead_cases path.text with ⟨_, cut⟩ | cut | ⟨_, cut⟩ | ⟨cut, -⟩ <;>
    · rw [cut]
      rfl
  rw [components_eq, List.filterMap_append, lead, filterMap_partOf?, filter_splitAt]
  rfl

theorem root_notMem_map_componentOf (parts : List Text) :
    PathComponent.root ∉ parts.map componentOf := by
  intro among
  obtain ⟨part, -, same⟩ := List.mem_map.mp among
  have isPart := partOf?_componentOf part
  rw [same] at isPart
  exact absurd isPart nofun

/-- A path is absolute just if the root is among its components. -/
theorem isAbsolute_iff (path : Path) :
    path.isAbsolute = true ↔ .root ∈ path.components := by
  have names := root_notMem_map_componentOf (path.parts.filter isSolid)
  rw [components_eq, List.mem_append, or_iff_left names]
  obtain ⟨text⟩ := path
  unfold isAbsolute
  fun_cases splitLead text with
  | case1 body => simp [leadComponents]
  | case2 => simp [leadComponents]
  | case3 body => simp [leadComponents]
  | case4 body noSlash =>
      have relative : text.head? ≠ some '/' := fun first => by
        obtain ⟨rest, rfl⟩ := List.head?_eq_some_iff.mp first
        exact noSlash rest rfl
      simp [leadComponents, relative]

/-- A path without components is empty. -/
theorem text_eq_nil_of_components {path : Path} (none : path.components = []) :
    path.text = [] := by
  rw [components_eq] at none
  obtain ⟨noLead, noParts⟩ := List.append_eq_nil_iff.mp none
  rcases splitLead_cases path.text with ⟨_, cut⟩ | cut | ⟨_, cut⟩ | ⟨cut, bare⟩
  case inr.inr.inr =>
    by_contra nonempty
    obtain ⟨first, rest, split, solid⟩ := bare.exists_first nonempty
    rw [parts, cut, split, List.filter_cons_of_pos (by simp [isSolid, solid])] at noParts
    cases noParts
  all_goals
    rw [cut] at noLead
    cases noLead

/-! ## What is left behind a directory -/

theorem filter_dropIdleStart (parts : List Text) :
    (dropIdleStart parts).filter isSolid = parts.filter isSolid := by
  induction parts with
  | nil => rfl
  | cons part rest inductionHypothesis =>
      unfold dropIdleStart at inductionHypothesis ⊢
      cases idle : isIdle part with
      | true => rw [List.dropWhile_cons_of_pos idle, inductionHypothesis,
          List.filter_cons_of_neg (by simp [isSolid, idle])]
      | false => rw [List.dropWhile_cons_of_neg (by simp [idle])]

theorem filter_dropComponents (count : Nat) (parts : List Text) :
    (dropComponents count parts).filter isSolid = (parts.filter isSolid).drop count := by
  fun_induction dropComponents count parts with
  | case1 parts => rw [List.drop_zero]
  | case2 count => rfl
  | case3 count part rest idle inductionHypothesis =>
      rw [inductionHypothesis, List.filter_cons_of_neg (by simp [isSolid, idle])]
  | case4 count part rest solid inductionHypothesis =>
      rw [inductionHypothesis, List.filter_cons_of_pos (by simpa [isSolid] using solid),
        List.drop_succ_cons]

/-- Parts of which the first is not idle are joined to a bare text. -/
theorem bare_join
    {parts : List Text}
    (solid : ∀ first, parts.head? = some first → isSolid first = true)
    (without : ∀ part ∈ parts, '/' ∉ part) :
    Bare (Text.join ['/'] parts) := by
  cases parts with
  | nil => exact bare_nil
  | cons first rest =>
      have bare := bare_of_solid (solid first rfl) (without first List.mem_cons_self)
      cases rest with
      | nil => rwa [Text.join, List.intercalate_singleton]
      | cons second others =>
          rw [Text.join_cons_cons]
          refine bare.append ?_ _
          rintro rfl
          exact absurd (solid [] rfl) (by decide)

theorem components_of_bare {path : Path} (bare : Bare path.text) :
    path.components = ((Text.splitAt '/' path.text).filter isSolid).map componentOf := by
  rw [components_eq, parts, splitLead_of_bare bare]
  rfl

/-- Idle parts at the end of a path are no components. -/
theorem components_join_dropIdleEnd (path : Path) :
    components ⟨(splitLead path.text).1 ++ Text.join ['/'] (dropIdleEnd path.parts)⟩ =
      path.components := by
  have begins : dropIdleEnd path.parts <+: path.parts := List.rdropWhile_prefix isIdle _
  have without : ∀ part ∈ dropIdleEnd path.parts, '/' ∉ part := fun part among =>
    Text.notMem_of_mem_splitAt (begins.subset among)
  have cut := splitLead_join begins
  have own : parts ⟨(splitLead path.text).1 ++ Text.join ['/'] (dropIdleEnd path.parts)⟩ =
      Text.splitAt '/' (Text.join ['/'] (dropIdleEnd path.parts)) := congrArg _ (congrArg _ cut)
  rw [components_eq, components_eq, own, cut, filter_splitAt_join without, filter_dropIdleEnd]

/-- What stands behind some components of a path, less the idle parts at its ends. -/
def leftBehind (path : Path) (count : Nat) : Path :=
  ⟨Text.join ['/'] (dropIdleStart (dropIdleEnd (dropComponents count path.parts)))⟩

theorem leftBehind_subset (path : Path) (count : Nat) :
    dropIdleStart (dropIdleEnd (dropComponents count path.parts)) ⊆ path.parts :=
  List.Subset.trans (List.dropWhile_suffix isIdle).subset <|
    List.Subset.trans (List.rdropWhile_prefix isIdle _).subset
      (dropComponents_suffix count path.parts).subset

theorem bare_leftBehind (path : Path) (count : Nat) : Bare (path.leftBehind count).text := by
  refine bare_join (fun first isFirst => ?_) fun part among =>
    Text.notMem_of_mem_splitAt (path.leftBehind_subset count among)
  have notIdle := List.head?_dropWhile_not isIdle (dropIdleEnd (dropComponents count path.parts))
  rw [← dropIdleStart, isFirst] at notIdle
  simpa [isSolid] using notIdle

theorem components_leftBehind (path : Path) (count : Nat) :
    (path.leftBehind count).components =
      ((path.parts.filter isSolid).drop count).map componentOf := by
  have without : ∀ part ∈ dropIdleStart (dropIdleEnd (dropComponents count path.parts)),
      '/' ∉ part := fun part among =>
    Text.notMem_of_mem_splitAt (path.leftBehind_subset count among)
  rw [components_of_bare (path.bare_leftBehind count), leftBehind, filter_splitAt_join without,
    filter_dropIdleStart, filter_dropIdleEnd, filter_dropComponents]

theorem length_leadComponents_le (lead : Text) : (leadComponents lead).length ≤ 1 := by
  unfold leadComponents
  split <;> simp

/-- What is left of a path behind a directory leads back to the path. -/
theorem components_join_stripBase?
    {base path rest : Path}
    (strips : path.stripBase? base = some rest) :
    (base.join rest).components = path.components := by
  unfold stripBase? at strips
  split at strips
  · next begins =>
      obtain ⟨behind, whole⟩ := List.isPrefixOf_iff_prefix.mp begins
      simp only at strips
      by_cases alone : base.components.length = 0
      · -- The directory is the empty path.
        have empty := text_eq_nil_of_components (List.length_eq_zero_iff.mp alone)
        have joined : base.join rest = rest := by
          unfold join
          split
          · rfl
          · simp [empty]
        rw [if_pos alone] at strips
        obtain rfl := Option.some.inj strips
        rw [joined, components_join_dropIdleEnd]
      · rw [if_neg alone] at strips
        have isRest := Option.some.inj strips
        generalize isCount : base.components.length -
          (leadComponents (splitLead path.text).1).length = count at isRest
        change path.leftBehind count = rest at isRest
        have nonempty : base.text ≠ [] := fun empty => alone (by
          simp [components, parts, empty, splitLead, leadComponents, Text.splitAt, isIdle])
        -- Both are the components of the directory and what stands behind them.
        have dropped : path.components.drop base.components.length = behind := by
          rw [← whole, List.drop_left]
        have few := length_leadComponents_le (splitLead path.text).1
        have short : (leadComponents (splitLead path.text).1).length ≤
            base.components.length := by omega
        rw [← isRest, components_join nonempty (path.bare_leftBehind count),
          components_leftBehind, ← whole, ← dropped, components_eq path, List.drop_append,
          List.drop_eq_nil_of_le short, List.nil_append, isCount, List.map_drop]
  · cases strips

/-- A path behind a directory has the components of the directory and those of its parts. -/
theorem components_join_of_relative
    {base path : Path}
    (nonempty : base.text ≠ [])
    (relative : path.isAbsolute = false) :
    (base.join path).components =
      base.components ++ ((Text.splitAt '/' path.text).filter isSolid).map componentOf := by
  obtain ⟨front, lead, whole, same⟩ := exists_parts_join nonempty relative
  rw [components_eq, components_eq, lead, whole, List.filter_append, same, List.map_append,
    ← List.append_assoc]

end Path

/-! ## Following parts -/

namespace FileSystem

variable {files : FileSystem} {cwd place reached : Place} {parts : List Text}

/-- Only from a directory does a part lead on. -/
theorem find?_of_follow_cons
    {part : Text}
    {rest : List Text}
    (followed : files.follow place (part :: rest) = .ok reached) :
    files.find? place = some .directory := by
  rw [follow] at followed
  unfold enter at followed
  split at followed
  · cases followed
  · cases followed
  · next isDirectory => exact isDirectory

/-- From a directory an idle part leads nowhere else. -/
theorem enter_of_isIdle
    {part : Text}
    (isDirectory : files.find? place = some .directory)
    (idle : Path.isIdle part = true) :
    files.enter place part = .ok place := by
  unfold enter
  rw [isDirectory]
  simp [idle]

/-- The parts that are not idle lead where all parts lead. -/
theorem follow_filter
    (followed : files.follow place parts = .ok reached) :
    files.follow place (parts.filter Path.isSolid) = .ok reached := by
  induction parts generalizing place with
  | nil => exact followed
  | cons part rest inductionHypothesis =>
      have isDirectory := find?_of_follow_cons followed
      cases idle : Path.isIdle part with
      | true =>
          rw [follow, enter_of_isIdle isDirectory idle] at followed
          rw [List.filter_cons_of_neg (by simp [Path.isSolid, idle])]
          exact inductionHypothesis followed
      | false =>
          rw [List.filter_cons_of_pos (by simp [Path.isSolid, idle]), follow]
          rw [follow] at followed
          cases entered : files.enter place part with
          | error problem =>
              rw [entered] at followed
              cases followed
          | ok next =>
              rw [entered] at followed
              exact inductionHypothesis followed

/-- Idle parts among others lead nowhere else, if those at the end stand in a directory. -/
theorem follow_of_filter
    (followed : files.follow place (parts.filter Path.isSolid) = .ok reached)
    (ends : files.find? reached = some .directory ∨
      ∀ last, parts.getLast? = some last → Path.isIdle last = false) :
    files.follow place parts = .ok reached := by
  induction parts generalizing place with
  | nil => exact followed
  | cons part rest inductionHypothesis =>
      have endsToo : files.find? reached = some .directory ∨
          ∀ last, rest.getLast? = some last → Path.isIdle last = false := by
        refine ends.imp_right fun solid last isLast => solid last ?_
        rw [List.getLast?_cons, isLast]
        rfl
      cases idle : Path.isIdle part with
      | true =>
          rw [List.filter_cons_of_neg (by simp [Path.isSolid, idle])] at followed
          have isDirectory : files.find? place = some .directory := by
            cases solids : rest.filter Path.isSolid with
            | cons first others => exact find?_of_follow_cons (solids ▸ followed)
            | nil =>
                -- All parts are idle, so they end where they begin.
                rw [solids] at followed
                obtain rfl := Except.ok.inj followed
                refine ends.resolve_right fun solid => ?_
                have allIdle : ∀ other ∈ part :: rest, Path.isIdle other = true := by
                  refine List.forall_mem_cons.mpr ⟨idle, fun other among => ?_⟩
                  simpa [Path.isSolid] using List.filter_eq_nil_iff.mp solids other among
                have isLast := List.getLast?_eq_some_getLast (List.cons_ne_nil part rest)
                have notIdle := solid _ isLast
                rw [allIdle _ (List.getLast_mem _)] at notIdle
                cases notIdle
          rw [follow, enter_of_isIdle isDirectory idle]
          exact inductionHypothesis followed endsToo
      | false =>
          rw [List.filter_cons_of_pos (by simp [Path.isSolid, idle]), follow] at followed
          rw [follow]
          cases entered : files.enter place part with
          | error problem =>
              rw [entered] at followed
              cases followed
          | ok next =>
              rw [entered] at followed
              exact inductionHypothesis followed endsToo

variable {path other : Path}

/-- Two paths with the same parts but for idle ones lead to the same place. -/
theorem resolve_of_filter
    (leads : files.resolve cwd path = .ok place)
    (nonempty : other.text ≠ [])
    (admissible : other.isAdmissible = true)
    (form : other.isAbsolute = path.isAbsolute)
    (same : (Text.splitAt '/' other.text).filter Path.isSolid =
      (Text.splitAt '/' path.text).filter Path.isSolid)
    (ends : files.find? place = some .directory ∨ Path.isIdle other.lastPart = false) :
    files.resolve cwd other = .ok place := by
  unfold resolve at leads ⊢
  split at leads
  · exact absurd leads nofun
  · split at leads
    · exact absurd leads nofun
    · have followed := follow_filter leads
      rw [if_neg (by simp [nonempty]), if_neg (by simp [admissible]), form]
      refine follow_of_filter (same ▸ followed) (ends.imp_right fun solid last isLast => ?_)
      rwa [Path.lastPart, List.getLastD_eq_getLast?, isLast] at solid

/-- Alike paths lead to the same place. -/
theorem resolve_of_components
    (leads : files.resolve cwd path = .ok place)
    (same : other.components = path.components)
    (admissible : other.isAdmissible = true)
    (nonempty : other.text ≠ [])
    (ends : files.find? place = some .directory ∨ Path.isIdle other.lastPart = false) :
    files.resolve cwd other = .ok place := by
  refine resolve_of_filter leads nonempty admissible ?_ ?_ ends
  · rw [Bool.eq_iff_iff, Path.isAbsolute_iff, Path.isAbsolute_iff, same]
  · rw [← Path.filterMap_components, ← Path.filterMap_components, same]

end FileSystem

/-- From a directory a path leads where it leads when it is joined to the directory. -/
theorem Place.ofPath_join
    {base path : Path}
    (cwd : Place)
    (relative : path.isAbsolute = false) :
    ofPath cwd (base.join path) = ofPath (ofPath cwd base) path := by
  by_cases empty : base.text = []
  · have joined : base.join path = path := by
      unfold Path.join
      simp [relative, empty]
    have here : ofPath cwd base = cwd := by
      rw [ofPath, Path.isAbsolute, empty]
      rfl
    rw [joined, here]
  · rw [ofPath_eq_components cwd (base.join path), Path.components_join_of_relative empty relative,
      List.foldl_append, ← ofPath_eq_components, ofPath_eq_foldl _ path, relative]
    exact foldl_componentOf _ _

end StyleTypings
