import StyleTypings.Files.Pattern
import StyleTypings.Proofs.Files.Stripping

/-!
# Where the walk of a pattern starts

A pattern is read without `./` in front, so the directory from which its walk starts does not
begin with a full stop as its first part. The paths of the walk are then found again behind
the working directory as they are written.
-/

namespace StyleTypings

/-- Behind what is left of a text stands what is dropped from its end. -/
theorem Text.exists_eq_dropEndWhile_append (test : Char → Bool) (text : Text) :
    ∃ rest : Text, text = dropEndWhile test text ++ rest ∧ ∀ c ∈ rest, test c = true :=
  ⟨text.rtakeWhile test, List.rdropWhile_append_rtakeWhile.symm,
    fun _ => List.mem_rtakeWhile_imp⟩

namespace Path

/-- A path that does not begin with a full stop as its first part. -/
def BeginsPlainly (path : Path) : Prop :=
  (splitLead path.text).1 ≠ ['.']

theorem BeginsPlainly.of_bare {path : Path} (bare : Bare path.text) : path.BeginsPlainly := by
  rw [BeginsPlainly, splitLead_of_bare bare]
  exact nofun

theorem BeginsPlainly.of_ne
    {text : Text}
    (noStop : text ≠ ['.'])
    (noStopSlash : ∀ body, text ≠ '.' :: '/' :: body) :
    BeginsPlainly ⟨text⟩ := by
  unfold BeginsPlainly
  fun_cases splitLead text with
  | case1 body => simp
  | case2 => exact absurd rfl noStop
  | case3 body => exact absurd rfl (noStopSlash body)
  | case4 body => simp

theorem bare_nil : Bare [] :=
  ⟨nofun, nofun, nofun⟩

/-- A path that begins plainly is absolute or bare. -/
theorem BeginsPlainly.bare
    {path : Path}
    (plain : path.BeginsPlainly)
    (relative : path.isAbsolute = false) :
    Bare path.text := by
  rcases splitLead_cases path.text with ⟨body, cut⟩ | cut | ⟨_, cut⟩ | ⟨-, bare⟩
  · exact absurd (isAbsolute_of_splitLead cut) (by simp [relative])
  · exact absurd (by rw [cut]) plain
  · exact absurd (by rw [cut]) plain
  · exact bare

/-- The beginning of a path before a slash. -/
theorem BeginsPlainly.of_append
    {front back : Text}
    (plain : BeginsPlainly ⟨front ++ back⟩)
    (ends : ∀ c, back.head? = some c → c = '/') :
    BeginsPlainly ⟨front⟩ := by
  cases back with
  | nil => simpa using plain
  | cons c rest =>
      obtain rfl := ends c rfl
      cases front with
      | nil => exact .of_bare bare_nil
      | cons d others =>
          unfold BeginsPlainly at plain ⊢
          rwa [splitLead_extend (List.cons_ne_nil d others)] at plain

/-- Slashes at the end of a path do not matter for how it begins. -/
theorem BeginsPlainly.dropEndWhile {text : Text} (plain : BeginsPlainly ⟨text⟩) :
    BeginsPlainly ⟨Text.dropEndWhile (· == '/') text⟩ := by
  obtain ⟨slashes, whole, areSlashes⟩ := Text.exists_eq_dropEndWhile_append (· == '/') text
  rw [whole] at plain
  refine plain.of_append fun c first => ?_
  simpa using areSlashes c (List.mem_of_mem_head? first)

/-- The parent of a path begins like the path. -/
theorem BeginsPlainly.parent
    {path directory : Path}
    (plain : path.BeginsPlainly)
    (isParent : path.parent? = some directory) :
    directory.BeginsPlainly := by
  unfold parent? at isParent
  split at isParent
  · rw [if_neg plain] at isParent
    exact absurd isParent nofun
  · next first rest shortened =>
      obtain rfl := Option.some.inj isParent
      have begins : dropIdleEnd (first :: rest).dropLast <+: path.parts := by
        rw [← shortened]
        exact (List.rdropWhile_prefix isIdle _).trans
          ((List.dropLast_prefix _).trans (List.rdropWhile_prefix isIdle _))
      unfold BeginsPlainly
      rwa [splitLead_join begins]

/-- A path behind a directory begins like the directory. -/
theorem BeginsPlainly.join
    {base path : Path}
    (plain : base.BeginsPlainly)
    (nonempty : base.text ≠ [])
    (bare : Bare path.text) :
    (base.join path).BeginsPlainly := by
  obtain ⟨front, lead, -⟩ := exists_parts_join nonempty bare.relative
  unfold BeginsPlainly
  rwa [lead]

/-- Only the root has no parent. -/
theorem BeginsPlainly.components_of_parent?
    {path : Path}
    (plain : path.BeginsPlainly)
    (nonempty : path.text ≠ [])
    (alone : path.parent? = none) :
    path.components = [.root] := by
  unfold parent? at alone
  split at alone
  · next shortened =>
      have none : path.parts.filter isSolid = [] := by
        rw [← filter_dropIdleEnd, shortened]
        rfl
      rw [components_eq, none]
      rcases splitLead_cases path.text with ⟨_, cut⟩ | cut | ⟨_, cut⟩ | ⟨cut, bare⟩
      · rw [cut]
        rfl
      · exact absurd (by rw [cut]) plain
      · exact absurd (by rw [cut]) plain
      · obtain ⟨first, rest, split, solid⟩ := bare.exists_first nonempty
        rw [parts, cut, split, List.filter_cons_of_pos (by simp [isSolid, solid])] at none
        cases none
  · cases alone

/-- The text of a component that is no lead is a bare one. -/
theorem bare_of_solid {part : Text} (solid : isSolid part = true) (simple : '/' ∉ part) :
    Bare part := by
  simp only [isSolid, isIdle, Bool.not_eq_true', Bool.or_eq_false_iff, List.isEmpty_eq_false_iff,
    beq_eq_false_iff_ne] at solid
  refine ⟨?_, solid.2, ?_⟩
  · rintro body rfl
    exact simple List.mem_cons_self
  · rintro body rfl
    exact simple (List.mem_cons_of_mem _ List.mem_cons_self)

theorem text_componentOf (part : Text) : (componentOf part).text = part := by
  by_cases up : part = ['.', '.']
  · subst up
    rfl
  · simp [componentOf, up, PathComponent.text]

/-- Behind its first component a path that begins plainly has names only. -/
theorem BeginsPlainly.components
    {path : Path}
    (plain : path.BeginsPlainly)
    {first : PathComponent}
    {rest : List PathComponent}
    (split : path.components = first :: rest) :
    BeginsPlainly ⟨first.text⟩ ∧ first.text ≠ [] ∧ ∀ component ∈ rest, Bare component.text := by
  have names : ∀ component ∈ (path.parts.filter isSolid).map componentOf,
      Bare component.text ∧ component.text ≠ [] := by
    intro component among
    obtain ⟨part, isPart, rfl⟩ := List.mem_map.mp among
    obtain ⟨isPart, solid⟩ := List.mem_filter.mp isPart
    rw [text_componentOf]
    refine ⟨bare_of_solid solid (Text.notMem_of_mem_splitAt isPart), ?_⟩
    rintro rfl
    exact absurd solid nofun
  rw [components_eq] at split
  rcases splitLead_cases path.text with ⟨_, cut⟩ | cut | ⟨_, cut⟩ | ⟨cut, -⟩
  · rw [cut] at split
    obtain ⟨rfl, rfl⟩ := List.cons.inj split
    exact ⟨nofun, nofun, fun component among => (names component among).1⟩
  · exact absurd (by rw [cut]) plain
  · exact absurd (by rw [cut]) plain
  · rw [cut] at split
    change (path.parts.filter isSolid).map componentOf = _ at split
    rw [split] at names
    obtain ⟨⟨bare, nonempty⟩, others⟩ := List.forall_mem_cons.mp names
    exact ⟨.of_bare bare, nonempty, fun component among => (others component among).1⟩

end Path

namespace FilePattern

open StyleTypings.Path (BeginsPlainly)

/-- Without `./` in front a pattern begins plainly. -/
theorem beginsPlainly_dropCurrent (pattern : Text) : BeginsPlainly ⟨dropCurrent pattern⟩ := by
  have inner (bound : Nat) (text : Text) (within : text.length ≤ bound) (body : Text) :
      dropCurrentFrom bound text ≠ '.' :: '/' :: body := by
    induction bound generalizing text with
    | zero =>
        obtain rfl := List.length_eq_zero_iff.mp (Nat.le_zero.mp within)
        exact nofun
    | succ bound inductionHypothesis =>
        unfold dropCurrentFrom
        split
        · next rest =>
            refine inductionHypothesis _ ?_
            have fewer := (List.dropWhile_sublist (l := rest) (· == '/')).length_le
            simp only [List.length_cons] at within
            omega
        · next other => exact other body
  unfold dropCurrent
  simp only
  split
  · exact .of_bare Path.bare_nil
  · next notStop => exact .of_ne notStop (inner _ _ le_rfl)

/-- Joined to a start, names lead on from it. -/
theorem beginsPlainly_foldl_join
    {components : List PathComponent}
    {start : Path}
    (plain : start.BeginsPlainly)
    (nonempty : start.text ≠ [])
    (bare : ∀ component ∈ components, Path.Bare component.text) :
    (components.foldl (fun start component => start.join ⟨component.text⟩)
      start).BeginsPlainly := by
  induction components generalizing start with
  | nil => exact plain
  | cons component rest inductionHypothesis =>
      obtain ⟨first, others⟩ := List.forall_mem_cons.mp bare
      exact inductionHypothesis (plain.join nonempty first) (Path.join_ne_nil nonempty _) others

theorem beginsPlainly_literalStart
    {pattern : Text}
    (plain : BeginsPlainly ⟨pattern⟩) :
    (literalStart pattern).BeginsPlainly := by
  have start (components : List PathComponent)
      (begins : components <+: Path.components ⟨pattern⟩) :
      (components.foldl (fun start component => start.join ⟨component.text⟩)
        (⟨[]⟩ : Path)).BeginsPlainly := by
    cases components with
    | nil => exact .of_bare Path.bare_nil
    | cons first rest =>
        obtain ⟨behind, whole⟩ := begins
        obtain ⟨plainFirst, nonempty, bare⟩ := plain.components whole.symm
        have alone : Path.join ⟨[]⟩ ⟨first.text⟩ = ⟨first.text⟩ := by
          simp [Path.join]
        rw [List.foldl_cons, alone]
        exact beginsPlainly_foldl_join plainFirst nonempty fun component among =>
          bare component (List.mem_append_left _ among)
  have begins := start _ (List.takeWhile_prefix fun component => !hasGlobSign component)
  unfold literalStart
  simp only
  split
  · cases isParent : Path.parent? _ with
    | none => exact begins
    | some directory => exact begins.parent isParent
  · exact begins

/-- The walk of a pattern starts at a path that begins plainly. -/
theorem beginsPlainly_start
    {environment : Environment}
    {text : Text}
    {world : World}
    {pattern : FilePattern}
    (chosen : ((ofText environment text).run world).1 = .ok pattern) :
    pattern.cwd = environment.cwd ∧ pattern.start.BeginsPlainly := by
  have plain := beginsPlainly_dropCurrent text
  have kinds : (Action.kind? ⟨dropCurrent text⟩).run world =
      (world.files.kind? world.cwd ⟨dropCurrent text⟩, world) := rfl
  unfold ofText at chosen
  rw [Action.run_bind, kinds] at chosen
  generalize dropCurrent text = written at plain chosen
  cases read : Glob.ofText (interpret written (world.files.kind? world.cwd ⟨written⟩)).2 with
  | error problem =>
      simp only [read] at chosen
      exact absurd chosen nofun
  | ok glob =>
      simp only [read] at chosen
      obtain rfl := Except.ok.inj chosen
      refine ⟨rfl, ?_⟩
      change (interpret written (world.files.kind? world.cwd ⟨written⟩)).1.BeginsPlainly
      unfold interpret
      split
      · exact .of_bare Path.bare_nil
      · next nonempty =>
        split
        · exact plain.dropEndWhile
        · next executable isFile =>
            cases isParent : Path.parent? ⟨written⟩ with
            | some directory => exact plain.parent isParent
            | none =>
                -- The root is a directory.
                have root := plain.components_of_parent? (by simpa using nonempty) isParent
                have found := FileSystem.find?_of_kind? isFile
                rw [Place.ofPath_eq_components, root] at found
                obtain ⟨content, found⟩ := found
                exact absurd found nofun
        · exact beginsPlainly_literalStart plain

end FilePattern
end StyleTypings
