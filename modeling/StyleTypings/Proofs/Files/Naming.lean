import Mathlib.Data.List.DropRight
import StyleTypings.Files.Path
import StyleTypings.Proofs.Text.Joining

/-!
# Names of files

The parent of a path that ends in a name has all its components but the last,
and what is left of the path without its parent is the name.
-/

namespace StyleTypings
namespace Path

/-! ## Leads -/

/-- A text that begins with neither a slash nor a full stop as its first part. -/
structure Bare (text : Text) : Prop where
  noSlash : ∀ body, text ≠ '/' :: body
  noStop : text ≠ ['.']
  noStopSlash : ∀ body, text ≠ '.' :: '/' :: body

theorem splitLead_of_bare {text : Text} (bare : Bare text) :
    splitLead text = ([], text) := by
  obtain ⟨noSlash, noStop, noStopSlash⟩ := bare
  unfold splitLead
  split
  · exact absurd rfl (noSlash _)
  · exact absurd rfl noStop
  · exact absurd rfl (noStopSlash _)
  · rfl

theorem splitLead_cases (text : Text) :
    (∃ body, splitLead text = (['/'], body)) ∨
      splitLead text = (['.'], []) ∨
      (∃ body, splitLead text = (['.'], '/' :: body)) ∨
      (splitLead text = ([], text) ∧ Bare text) := by
  unfold splitLead
  split
  · exact .inl ⟨_, rfl⟩
  · exact .inr (.inl rfl)
  · exact .inr (.inr (.inl ⟨_, rfl⟩))
  · next noSlash noStop noStopSlash =>
      exact .inr (.inr (.inr ⟨rfl, noSlash, noStop, noStopSlash⟩))

theorem splitLead_lead (text : Text) :
    splitLead (splitLead text).1 = ((splitLead text).1, []) := by
  rcases splitLead_cases text with ⟨body, split⟩ | split | ⟨body, split⟩ | ⟨split, -⟩
  all_goals
    rw [split]
    rfl

/-- The first parts of a bare text are bare. -/
theorem Bare.of_append
    {front back : Text}
    (bare : Bare (front ++ back))
    (ends : ∀ c, back.head? = some c → c = '/') :
    Bare front := by
  obtain ⟨noSlash, noStop, noStopSlash⟩ := bare
  refine ⟨?_, ?_, ?_⟩
  · rintro body rfl
    exact noSlash _ rfl
  · rintro rfl
    cases back with
    | nil => exact noStop rfl
    | cons c rest =>
        obtain rfl := ends c rfl
        exact noStopSlash rest rfl
  · rintro body rfl
    exact noStopSlash _ rfl

/-- A lead is split off again from the first parts of the text after it. -/
theorem splitLead_append
    {text front back : Text}
    (split : (splitLead text).2 = front ++ back)
    (ends : ∀ c, back.head? = some c → c = '/') :
    splitLead ((splitLead text).1 ++ front) = ((splitLead text).1, front) := by
  rcases splitLead_cases text with ⟨body, cut⟩ | cut | ⟨body, cut⟩ | ⟨cut, bare⟩
  · rw [cut]
    rfl
  · rw [cut] at split ⊢
    obtain ⟨rfl, -⟩ := List.append_eq_nil_iff.mp split.symm
    rfl
  · rw [cut] at split ⊢
    cases front with
    | nil => rfl
    | cons c rest =>
        obtain ⟨rfl, -⟩ := List.cons.inj split
        rfl
  · rw [cut] at split ⊢
    exact splitLead_of_bare (Bare.of_append (split ▸ bare) ends)

/-! ## Parts -/

/-- Whether a part is a component. -/
def isSolid (part : Text) : Bool :=
  !isIdle part

theorem isIdle_iff {part : Text} : isIdle part = true ↔ part = [] ∨ part = ['.'] := by
  simp [isIdle]

theorem components_eq (path : Path) :
    path.components =
      leadComponents (splitLead path.text).1 ++
        (path.parts.filter isSolid).map componentOf := rfl

/-- Dropping idle parts at the end keeps the components. -/
theorem filter_dropIdleEnd (parts : List Text) :
    (dropIdleEnd parts).filter isSolid = parts.filter isSolid := by
  change (parts.rdropWhile isIdle).filter isSolid = _
  induction parts using List.reverseRecOn with
  | nil => rfl
  | append_singleton rest part inductionHypothesis =>
      rw [List.rdropWhile_concat]
      split
      · next idle =>
          rw [inductionHypothesis, List.filter_append]
          simp [isSolid, idle]
      · rfl

/-- Idle parts at the end are dropped down to a part that is not. -/
theorem dropIdleEnd_append
    {part : Text}
    {back : List Text}
    (solid : isIdle part = false)
    (idle : ∀ other ∈ back, isIdle other = true)
    (front : List Text) :
    dropIdleEnd (front ++ part :: back) = front ++ [part] := by
  have before : (front ++ part :: back).reverse = back.reverse ++ (front ++ [part]).reverse := by
    simp
  unfold dropIdleEnd
  rw [before, List.dropWhile_append_of_pos fun other present =>
    idle other (List.mem_reverse.mp present)]
  simp [solid]

/-- Idle parts at the start are dropped up to a part that is not. -/
theorem dropIdleStart_append
    {part : Text}
    {front : List Text}
    (solid : isIdle part = false)
    (idle : ∀ other ∈ front, isIdle other = true)
    (back : List Text) :
    dropIdleStart (front ++ part :: back) = part :: back := by
  unfold dropIdleStart
  rw [List.dropWhile_append_of_pos idle, List.dropWhile_cons_of_neg (by simp [solid])]

/-- The last component among parts stands before idle parts only. -/
theorem exists_split_of_getLast?_filter
    {parts : List Text}
    {part : Text}
    (last : (parts.filter isSolid).getLast? = some part) :
    ∃ front back, parts = front ++ part :: back ∧ isIdle part = false ∧
      ∀ other ∈ back, isIdle other = true := by
  induction parts using List.reverseRecOn with
  | nil => exact absurd last nofun
  | append_singleton rest other inductionHypothesis =>
      rw [List.filter_append] at last
      cases idle : isIdle other with
      | true =>
          have dropped : [other].filter isSolid = [] := by simp [isSolid, idle]
          rw [dropped, List.append_nil] at last
          obtain ⟨front, back, rfl, solid, rests⟩ := inductionHypothesis last
          refine ⟨front, back ++ [other], by simp, solid, fun another present => ?_⟩
          rcases List.mem_append.mp present with earlier | here
          · exact rests another earlier
          · rw [List.mem_singleton.mp here, idle]
      | false =>
          have kept : [other].filter isSolid = [other] := by simp [isSolid, idle]
          rw [kept, List.getLast?_concat] at last
          obtain rfl := Option.some.inj last
          exact ⟨rest, [], rfl, idle, nofun⟩

/-- The parts of a text that was joined from parts of a path. -/
theorem filter_splitAt_join
    {parts : List Text}
    (without : ∀ part ∈ parts, '/' ∉ part) :
    (Text.splitAt '/' (Text.join ['/'] parts)).filter isSolid = parts.filter isSolid := by
  cases parts with
  | nil => rfl
  | cons first others => rw [Text.splitAt_join (List.cons_ne_nil _ _) without]

/-- Dropping as many components as stand in front leaves idle parts of it. -/
theorem exists_dropComponents_append (front back : List Text) :
    ∃ idle, (∀ part ∈ idle, isIdle part = true) ∧
      dropComponents (front.filter isSolid).length (front ++ back) = idle ++ back := by
  induction front with
  | nil => exact ⟨[], nofun, by cases back <;> rfl⟩
  | cons part rest inductionHypothesis =>
      obtain ⟨left, idle, dropped⟩ := inductionHypothesis
      cases solid : isIdle part with
      | false =>
          refine ⟨left, idle, ?_⟩
          rw [List.filter_cons_of_pos (by simp [isSolid, solid]), List.length_cons,
            List.cons_append, dropComponents, if_neg (by simp [solid]), dropped]
      | true =>
          rw [List.filter_cons_of_neg (by simp [isSolid, solid])]
          cases count : (rest.filter isSolid).length with
          | zero =>
              refine ⟨part :: rest, fun other present => ?_, by rw [dropComponents]⟩
              rcases List.mem_cons.mp present with rfl | later
              · exact solid
              · have none := List.filter_eq_nil_iff.mp (List.length_eq_zero_iff.mp count)
                simpa [isSolid] using none other later
          | succ count' =>
              refine ⟨left, idle, ?_⟩
              rw [count] at dropped
              rw [List.cons_append, dropComponents, if_pos solid, dropped]

/-! ## The directory and the name of a file -/

/-- A path with a name is cut into its lead, the parts before the name, the name
and idle parts. -/
theorem exists_parts_of_fileName?
    {path : Path}
    {name : Text}
    (named : path.fileName? = some name) :
    ∃ front back, path.parts = front ++ name :: back ∧ isIdle name = false ∧
      (∀ part ∈ back, isIdle part = true) ∧ componentOf name = .normal name := by
  unfold fileName? at named
  rw [components_eq, List.getLast?_append, List.getLast?_map] at named
  cases last : (path.parts.filter isSolid).getLast? with
  | none =>
      rw [last] at named
      rcases splitLead_cases path.text with ⟨_, cut⟩ | cut | ⟨_, cut⟩ | ⟨cut, -⟩
      all_goals
        rw [cut] at named
        exact absurd named nofun
  | some part =>
      obtain ⟨front, back, split, solid, idle⟩ := exists_split_of_getLast?_filter last
      by_cases up : (part == ['.', '.']) = true
      · have isParent : componentOf part = .parent := if_pos up
        rw [last, Option.map_some, Option.some_or, isParent] at named
        exact absurd named nofun
      · have normal : componentOf part = .normal part := if_neg up
        rw [last, Option.map_some, Option.some_or, normal] at named
        obtain rfl := Option.some.inj named
        exact ⟨front, back, split, solid, idle, normal⟩

/-- The first parts of a path behind its lead have that lead. -/
theorem splitLead_join {path : Path} {front : List Text} (begins : front <+: path.parts) :
    splitLead ((splitLead path.text).1 ++ Text.join ['/'] front) =
      ((splitLead path.text).1, Text.join ['/'] front) := by
  cases front with
  | nil =>
      have nothing : Text.join ['/'] [] = [] := rfl
      rw [nothing, List.append_nil]
      exact splitLead_lead path.text
  | cons first others =>
      obtain ⟨behind, isBehind⟩ := begins
      obtain ⟨rest, joined, ends⟩ := Text.exists_join_append (List.cons_ne_nil first others) behind
      refine splitLead_append ?_ ends
      have whole : Text.join ['/'] path.parts = (splitLead path.text).2 := Text.join_splitAt '/' _
      rw [← whole, ← joined, isBehind]

/-- The parent of a path is written as the path up to the idle parts before the name. -/
theorem parent?_eq
    {path : Path}
    {name : Text}
    {front back : List Text}
    (split : path.parts = front ++ name :: back)
    (solid : isIdle name = false)
    (idle : ∀ part ∈ back, isIdle part = true) :
    path.parent? = some ⟨(splitLead path.text).1 ++ Text.join ['/'] (dropIdleEnd front)⟩ := by
  unfold parent?
  rw [split, dropIdleEnd_append solid idle]
  cases front with
  | nil => rfl
  | cons first others =>
      have before : (first :: (others ++ [name])).dropLast = first :: others := by
        rw [← List.cons_append, List.dropLast_concat]
      simp only [List.cons_append, before]

/-- The parent of a path keeps the components before the name. -/
theorem exists_parent
    {path : Path}
    {name : Text}
    {front back : List Text}
    (split : path.parts = front ++ name :: back)
    (solid : isIdle name = false)
    (idle : ∀ part ∈ back, isIdle part = true) :
    ∃ directory, path.parent? = some directory ∧
      directory.components =
        leadComponents (splitLead path.text).1 ++
          (front.filter isSolid).map componentOf := by
  let lead := (splitLead path.text).1
  let shown := Text.join ['/'] (dropIdleEnd front)
  refine ⟨_, parent?_eq split solid idle, ?_⟩
  have begins : dropIdleEnd front <+: path.parts := by
    rw [split]
    exact (List.rdropWhile_prefix isIdle front).trans (List.prefix_append _ _)
  have without : ∀ part ∈ dropIdleEnd front, '/' ∉ part := fun part present =>
    Text.notMem_of_mem_splitAt (begins.subset present)
  have cut : splitLead (lead ++ shown) = (lead, shown) := splitLead_join begins
  rw [components_eq, parts, cut, filter_splitAt_join without, filter_dropIdleEnd]

/-- The first of several parts of a bare text is a component. -/
theorem isSolid_of_bare
    {text first second : Text}
    {others : List Text}
    (bare : Bare text)
    (split : Text.splitAt '/' text = first :: second :: others) :
    isSolid first = true := by
  have whole : text = first ++ '/' :: Text.join ['/'] (second :: others) := by
    have joined := Text.join_splitAt '/' text
    rw [split, Text.join_cons_cons] at joined
    exact joined.symm
  cases idle : isIdle first with
  | false => simp [isSolid, idle]
  | true =>
      rcases isIdle_iff.mp idle with rfl | rfl
      · exact absurd whole (bare.noSlash _)
      · exact absurd whole (bare.noStopSlash _)

/-- Without components before the name a path begins with the name. -/
theorem eq_nil_of_filter_eq_nil
    {path : Path}
    {name : Text}
    {front back : List Text}
    (split : path.parts = front ++ name :: back)
    (noLead : leadComponents (splitLead path.text).1 = [])
    (noFront : front.filter isSolid = []) :
    (splitLead path.text).1 = [] ∧ front = [] := by
  rcases splitLead_cases path.text with ⟨_, cut⟩ | cut | ⟨_, cut⟩ | ⟨cut, bare⟩
  case inr.inr.inr =>
    refine ⟨by rw [cut], ?_⟩
    unfold parts at split
    rw [cut] at split
    cases front with
    | nil => rfl
    | cons first others =>
        have solid : isSolid first = true := by
          cases others with
          | nil => exact isSolid_of_bare bare split
          | cons second more => exact isSolid_of_bare bare split
        rw [List.filter_cons_of_pos solid] at noFront
        exact absurd noFront (List.cons_ne_nil _ _)
  all_goals
    rw [cut] at noLead
    exact absurd noLead nofun

/-- What is left of a path without its parent is its name. -/
theorem stripBase?_parent
    {path : Path}
    {name : Text}
    (named : path.fileName? = some name) :
    path.stripBase? (path.parent?.getD ⟨[]⟩) = some ⟨name⟩ := by
  obtain ⟨front, back, split, solid, idle, normal⟩ := exists_parts_of_fileName? named
  obtain ⟨directory, isParent, components⟩ := exists_parent split solid idle
  have whole : path.components = directory.components ++ [.normal name] := by
    have ended : (name :: back).filter isSolid = [name] := by
      rw [List.filter_cons_of_pos (by simp [isSolid, solid]), List.filter_eq_nil_iff.mpr]
      intro part present
      simp [isSolid, idle part present]
    rw [components, components_eq, split, List.filter_append, ended, List.map_append,
      List.map_singleton, normal, List.append_assoc]
  have begins : directory.components.isPrefixOf path.components = true := by
    rw [whole]
    exact List.isPrefixOf_iff_prefix.mpr (List.prefix_append _ _)
  rw [isParent, Option.getD_some]
  unfold stripBase?
  rw [if_pos begins]
  simp only
  have shown : Text.join ['/'] [name] = name := List.intercalate_singleton
  have count : directory.components.length =
      (leadComponents (splitLead path.text).1).length + (front.filter isSolid).length := by
    rw [components, List.length_append, List.length_map]
  by_cases alone : directory.components.length = 0
  · rw [alone] at count
    have noLead : leadComponents (splitLead path.text).1 = [] :=
      List.length_eq_zero_iff.mp (by omega)
    have noFront : front.filter isSolid = [] := List.length_eq_zero_iff.mp (by omega)
    obtain ⟨lead, rfl⟩ := eq_nil_of_filter_eq_nil split noLead noFront
    rw [if_pos alone, split, dropIdleEnd_append solid idle, lead, List.nil_append,
      List.nil_append, shown]
  · rw [if_neg alone, count, Nat.add_sub_cancel_left, split]
    obtain ⟨left, leftIdle, dropped⟩ := exists_dropComponents_append front (name :: back)
    rw [dropped, dropIdleEnd_append solid idle, dropIdleStart_append solid leftIdle, shown]

end Path
end StyleTypings
