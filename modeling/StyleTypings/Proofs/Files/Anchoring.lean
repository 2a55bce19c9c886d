import StyleTypings.Proofs.Files.Following
import StyleTypings.Proofs.Files.Selecting

/-!
# Anchored paths

What is left of a path behind a directory leads from that directory to where the path leads. An
absolute path does so too, since joining keeps it. Any other path is taken anew from the
directory, so it leads to where it leads from the working directory only by chance. Paths of the
first two kinds are called anchored: they stay so when more is joined to them, and the directory
of an anchored file is anchored as well.
-/

namespace StyleTypings
namespace Path

/-- A path that is absolute, or begins with the components of a directory. -/
def IsAnchored (path root : Path) : Prop :=
  path.isAbsolute = true ∨ root.components <+: path.components

instance (path root : Path) : Decidable (path.IsAnchored root) :=
  inferInstanceAs (Decidable (_ ∨ _))

variable {root base path rest : Path}

/-- A path is taken apart by a directory just if it begins with its components. -/
theorem isSome_stripBase?_iff :
    (path.stripBase? base).isSome = true ↔ base.components <+: path.components := by
  rw [← List.isPrefixOf_iff_prefix]
  unfold stripBase?
  split
  · next begins =>
      simp only [begins, iff_true]
      split <;> rfl
  · next other => simp [other]

theorem stripBase?_eq_none_iff :
    path.stripBase? base = none ↔ ¬ base.components <+: path.components := by
  rw [← isSome_stripBase?_iff, Option.not_isSome_iff_eq_none]

theorem components_nil {path : Path} (empty : path.text = []) : path.components = [] := by
  simp [components, parts, empty, splitLead, leadComponents, Text.splitAt, isIdle]

/-! ## Joining -/

/-- A text behind a joined path is one behind the path that was joined. -/
theorem append_join
    {suffix : Text}
    (plain : suffix.head? ≠ some '/')
    (base path : Path) :
    (base.join path).append suffix = base.join (path.append suffix) := by
  have form : (path.append suffix).isAbsolute = path.isAbsolute := by
    obtain ⟨text⟩ := path
    cases text with
    | nil => simp [isAbsolute, append, plain]
    | cons c others => rfl
  unfold join
  rw [form]
  split
  · rfl
  · split <;> simp [append]

theorem isAbsolute_append (absolute : path.isAbsolute = true) (suffix : Text) :
    (path.append suffix).isAbsolute = true := by
  obtain ⟨body, text⟩ := exists_text_of_isAbsolute absolute
  simp [isAbsolute, append, text]

/-- The parts of a relative path come behind those of the directory. -/
theorem exists_splitAt_join
    (nonempty : base.text ≠ [])
    (relative : path.isAbsolute = false) :
    ∃ front, Text.splitAt '/' (base.join path).text = front ++ Text.splitAt '/' path.text ∧
      front.filter isSolid = (Text.splitAt '/' base.text).filter isSolid := by
  unfold join
  rw [if_neg (by simp [relative])]
  by_cases slash : base.text.getLast? = some '/'
  · obtain ⟨front, text⟩ := List.getLast?_eq_some_iff.mp slash
    rw [if_pos (.inr slash), text, List.append_assoc, List.singleton_append,
      Text.splitAt_append_cons, Text.splitAt_append_cons]
    exact ⟨_, rfl, by simp [Text.splitAt, isSolid, isIdle]⟩
  · rw [if_neg (by simp [nonempty, slash])]
    exact ⟨_, Text.splitAt_append_cons _ _ _, rfl⟩

/-- A joined path ends like the path that was joined. -/
theorem lastPart_join (base path : Path) : (base.join path).lastPart = path.lastPart := by
  cases form : path.isAbsolute with
  | true =>
      unfold join
      rw [if_pos form]
  | false =>
      by_cases empty : base.text = []
      · simp [join, form, empty]
      · obtain ⟨front, split, -⟩ := exists_splitAt_join empty form
        rw [path.splitAt_eq, ← List.append_assoc] at split
        simp [lastPart, split]

theorem isAbsolute_join_left
    (nonempty : base.text ≠ [])
    (relative : path.isAbsolute = false) :
    (base.join path).isAbsolute = base.isAbsolute := by
  obtain ⟨c, others, text⟩ := List.exists_cons_of_ne_nil nonempty
  unfold join
  rw [if_neg (by simp [relative])]
  split <;> simp [isAbsolute, text]

/-- What is joined to an anchored directory is anchored. -/
theorem IsAnchored.join (anchored : base.IsAnchored root) (path : Path) :
    (base.join path).IsAnchored root := by
  cases form : path.isAbsolute with
  | true =>
      refine .inl ?_
      unfold Path.join
      rwa [if_pos form]
  | false =>
      rcases anchored with absolute | begins
      · exact .inl (isAbsolute_join absolute path)
      · refine .inr ?_
        by_cases empty : base.text = []
        · rw [components_nil empty, List.prefix_nil] at begins
          rw [begins]
          exact List.nil_prefix
        · rw [components_join_of_relative empty form]
          exact begins.trans (List.prefix_append _ _)

/-- From an absolute directory anchored paths are absolute. -/
theorem IsAnchored.isAbsolute
    (anchored : path.IsAnchored root)
    (absolute : root.isAbsolute = true) :
    path.isAbsolute = true := by
  refine anchored.elim id fun begins => ?_
  exact path.isAbsolute_iff.mpr (begins.subset (root.isAbsolute_iff.mp absolute))

/-! ## Parents -/

/-- Without its lead a path ends in the same part, unless that part is idle. -/
theorem exists_parts_of_lastPart (solid : isIdle path.lastPart = false) :
    ∃ front, path.parts = front ++ [path.lastPart] := by
  obtain ⟨text⟩ := path
  -- Behind a lead of one character the parts are those of the whole text but for the first.
  have behind (first : Text) {body : Text}
      (split : Text.splitAt '/' text = first :: Text.splitAt '/' body) :
      ∃ front, Text.splitAt '/' body = front ++ [lastPart ⟨text⟩] := by
    refine ⟨frontParts ⟨body⟩, ?_⟩
    rw [splitAt_eq ⟨body⟩] at split
    rw [lastPart_of_splitAt (split.trans (List.cons_append ..).symm)]
    exact splitAt_eq ⟨body⟩
  unfold parts
  fun_cases splitLead text with
  | case1 body => exact behind [] rfl
  | case2 => exact absurd solid (by decide)
  | case3 body =>
      obtain ⟨front, split⟩ := @behind ['.'] body rfl
      exact ⟨[] :: front, congrArg ([] :: ·) split⟩
  | case4 body => exact ⟨frontParts ⟨text⟩, splitAt_eq ⟨text⟩⟩

/-- The directory of a path that ends in a proper part has all its components but the last. -/
theorem components_eq_append (solid : isIdle path.lastPart = false) :
    path.components =
      (path.parent?.getD ⟨[]⟩).components ++ [componentOf path.lastPart] := by
  obtain ⟨front, split⟩ := exists_parts_of_lastPart solid
  obtain ⟨directory, isParent, components⟩ := exists_parent split solid nofun
  have ended : path.parts.filter isSolid = front.filter isSolid ++ [path.lastPart] := by
    rw [split, List.filter_append, List.filter_singleton]
    simp [isSolid, solid]
  rw [isParent, Option.getD_some, components, components_eq, ended, List.map_append,
    List.map_singleton, List.append_assoc]

/-- The directory of a path that ends in a proper part is absolute just if the path is. -/
theorem isAbsolute_parent (solid : isIdle path.lastPart = false) :
    (path.parent?.getD ⟨[]⟩).isAbsolute = path.isAbsolute := by
  have noRoot : .root ∉ [componentOf path.lastPart] :=
    root_notMem_map_componentOf [path.lastPart]
  rw [Bool.eq_iff_iff, isAbsolute_iff, isAbsolute_iff, components_eq_append solid,
    List.mem_append, or_iff_left noRoot]

theorem isAbsolute_parent? {directory : Path}
    (absolute : path.isAbsolute = true)
    (isParent : path.parent? = some directory) :
    directory.isAbsolute = true := by
  obtain ⟨text⟩ := path
  obtain ⟨body, rfl⟩ := exists_text_of_isAbsolute absolute
  unfold parent? at isParent
  split at isParent
  · exact absurd isParent nofun
  · obtain rfl := Option.some.inj isParent
    rfl

/-- All directories above an absolute path are absolute. -/
theorem isAbsolute_of_mem_ancestors {directory : Path}
    (absolute : path.isAbsolute = true)
    (above : directory ∈ path.ancestors) :
    directory.isAbsolute = true := by
  unfold ancestors at above
  generalize path.components.length = count at above
  induction count generalizing path with
  | zero => exact List.mem_singleton.mp above ▸ absolute
  | succ count inductionHypothesis =>
      rw [ancestorsFrom] at above
      cases isParent : path.parent? with
      | none =>
          rw [isParent] at above
          exact List.mem_singleton.mp above ▸ absolute
      | some parent =>
          rw [isParent] at above
          rcases List.mem_cons.mp above with rfl | further
          · exact absolute
          · exact inductionHypothesis (isAbsolute_parent? absolute isParent) further

/-- The directory of an anchored path is anchored, unless the path is the root of it all. -/
theorem IsAnchored.parent
    (anchored : path.IsAnchored root)
    (solid : isIdle path.lastPart = false)
    (other : path.components ≠ root.components) :
    (path.parent?.getD ⟨[]⟩).IsAnchored root := by
  have components := components_eq_append solid
  rcases anchored with absolute | begins
  · exact .inl ((isAbsolute_parent solid).trans absolute)
  · rw [components, List.prefix_concat_iff] at begins
    exact begins.elim (fun same => absurd (components.trans same.symm) other) .inr

/-! ## What is left of a path -/

theorem splitLead_fst_append_snd (text : Text) :
    (splitLead text).1 ++ (splitLead text).2 = text := by
  fun_cases splitLead text <;> rfl

theorem dropIdleEnd_concat {part : Text} (solid : isIdle part = false) (front : List Text) :
    dropIdleEnd (front ++ [part]) = front ++ [part] :=
  dropIdleEnd_append solid (fun _ none => absurd none List.not_mem_nil) front

/-- Some last parts end like all parts, if they are not all idle. -/
theorem exists_dropIdleStart_concat
    {parts front : List Text}
    {last : Text}
    (ends : parts <:+ front ++ [last])
    (nonempty : parts ≠ [])
    (solid : isIdle last = false) :
    ∃ others, dropIdleStart (dropIdleEnd parts) = others ++ [last] := by
  obtain ⟨inner, rfl, -⟩ := (List.suffix_concat_iff.mp ends).resolve_left nonempty
  rw [dropIdleEnd_concat solid]
  have behind : dropIdleStart (inner ++ [last]) <:+ inner ++ [last] :=
    List.dropWhile_suffix isIdle
  obtain idle | ⟨others, left, -⟩ := List.suffix_concat_iff.mp behind
  · have kept := filter_dropIdleStart (inner ++ [last])
    rw [idle, List.filter_append, List.filter_singleton] at kept
    simp [isSolid, solid] at kept
  · exact ⟨others, left⟩

/-- What is left of a path that leads below a directory ends like the path. -/
theorem lastPart_of_stripBase?
    (strips : path.stripBase? base = some rest)
    (solid : isIdle path.lastPart = false)
    (other : path.components ≠ base.components) :
    rest.lastPart = path.lastPart := by
  obtain ⟨front, split⟩ := exists_parts_of_lastPart solid
  have rejoined := components_join_stripBase? strips
  unfold stripBase? at strips
  split at strips
  · simp only at strips
    by_cases alone : base.components.length = 0
    · have whole : path = rest := by
        rw [if_pos alone, split, dropIdleEnd_concat solid, ← split, parts,
          Text.join_splitAt, splitLead_fst_append_snd] at strips
        exact Option.some.inj strips
      rw [whole]
    · rw [if_neg alone] at strips
      generalize isCount : base.components.length -
        (leadComponents (splitLead path.text).1).length = count at strips
      have isRest := Option.some.inj strips
      have ends := dropComponents_suffix count path.parts
      rw [split] at ends isRest
      by_cases none : dropComponents count (front ++ [path.lastPart]) = []
      · -- Nothing is left, so the path is the directory.
        have nonempty : base.text ≠ [] := fun empty => alone (by rw [components_nil empty]; rfl)
        obtain rfl : ⟨[]⟩ = rest := by rw [← isRest, none]; rfl
        rw [components_join nonempty bare_nil, components_nil rfl, List.append_nil] at rejoined
        exact absurd rejoined.symm other
      · obtain ⟨others, left⟩ := exists_dropIdleStart_concat ends none solid
        have without : ∀ part ∈ others ++ [path.lastPart], '/' ∉ part := fun part among =>
          Text.notMem_of_mem_splitAt (path.leftBehind_subset count (by rwa [split, left]))
        rw [left] at isRest
        have whole : Text.splitAt '/' rest.text = others ++ [path.lastPart] := by
          rw [← isRest]
          exact Text.splitAt_join (by simp) without
        exact lastPart_of_splitAt whole
  · cases strips

end Path

namespace FileSystem

variable {files : FileSystem} {cwd place : Place} {root path rest : Path}

/-- Idle parts are of no account for where parts lead. -/
theorem foldl_filter_isSolid (place : Place) (parts : List Text) :
    (parts.filter Path.isSolid).foldl Place.after place = parts.foldl Place.after place := by
  rw [← Place.foldl_componentOf, ← Place.foldl_componentOf]
  congr 2
  exact (List.filter_filter ..).trans (List.filter_congr fun part _ => by simp [Path.isSolid])

/-- The directory of a path that leads somewhere exists. -/
theorem follow_parent
    (leads : files.resolve cwd path = .ok place)
    (solid : Path.isIdle path.lastPart = false)
    (isParent : path.parent?.getD ⟨[]⟩ = root) :
    files.follow (.origin cwd root) ((Text.splitAt '/' root.text).filter Path.isSolid) =
        .ok (.ofPath cwd root) ∧
      files.find? (.ofPath cwd root) = some .directory := by
  obtain ⟨followed, isDirectory⟩ := follow_frontParts leads
  have components := Path.components_eq_append solid
  rw [isParent] at components
  have parts : (Text.splitAt '/' root.text).filter Path.isSolid =
      path.frontParts.filter Path.isSolid := by
    have whole := path.filterMap_components
    rw [components, List.filterMap_append, root.filterMap_components, path.splitAt_eq,
      List.filter_append, List.filter_singleton] at whole
    simpa [Path.isSolid, solid, Path.partOf?_componentOf] using whole
  have form : Place.origin cwd root = Place.origin cwd path := by
    rw [Place.origin, Place.origin, ← isParent, Path.isAbsolute_parent solid]
  have there : Place.ofPath cwd root = .around cwd path := by
    rw [Place.ofPath_eq_foldl, ← foldl_filter_isSolid, parts, foldl_filter_isSolid]
    exact congrArg (path.frontParts.foldl Place.after) form
  rw [form, parts, there]
  exact ⟨follow_filter followed, isDirectory⟩

/-- What is left of a path behind a directory leads back from there to the file of the path. -/
theorem resolve_join_of_stripBase?
    (leads : files.resolve cwd path = .ok place)
    (notDirectory : files.find? place ≠ some .directory)
    (isDirectory : files.find? (.ofPath cwd root) = some .directory)
    (strips : path.stripBase? root = some rest)
    (admissible : (root.join rest).isAdmissible = true) :
    files.resolve cwd (root.join rest) = .ok place := by
  have solid := Path.isIdle_lastPart_of_resolve leads notDirectory
  have other : path.components ≠ root.components := by
    intro same
    have there := resolve_eq leads
    rw [Place.ofPath_eq_components, same, ← Place.ofPath_eq_components] at there
    exact notDirectory (there ▸ isDirectory)
  have ends : (root.join rest).lastPart = path.lastPart :=
    (Path.lastPart_join root rest).trans (Path.lastPart_of_stripBase? strips solid other)
  refine resolve_of_components leads (Path.components_join_stripBase? strips) admissible ?_ ?_
  · intro empty
    rw [Path.lastPart, empty] at ends
    rw [← ends] at solid
    exact absurd solid (by decide)
  · exact .inr (ends ▸ solid)

/-- A relative path leads on from a directory where it leads from there as a working directory. -/
theorem resolve_join_of_relative
    (followed : files.follow (.origin cwd root)
      ((Text.splitAt '/' root.text).filter Path.isSolid) = .ok (.ofPath cwd root))
    (isDirectory : files.find? (.ofPath cwd root) = some .directory)
    (nonempty : root.text ≠ [])
    (relative : path.isAbsolute = false)
    (admissible : (root.join path).isAdmissible = true) :
    files.resolve cwd (root.join path) =
      files.follow (.ofPath cwd root) (Text.splitAt '/' path.text) := by
  obtain ⟨front, split, same⟩ := Path.exists_splitAt_join nonempty relative
  have reached : files.follow (.origin cwd root) front = .ok (.ofPath cwd root) :=
    follow_of_filter (same ▸ followed) (.inl isDirectory)
  unfold resolve
  rw [if_neg (by simp [Path.join_ne_nil nonempty]), if_neg (by simp [admissible]),
    Path.isAbsolute_join_left nonempty relative, split, follow_append]
  change (files.follow (.origin cwd root) front).bind _ = _
  rw [reached]
  rfl

end FileSystem
end StyleTypings
