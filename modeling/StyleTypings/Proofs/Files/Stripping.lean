import StyleTypings.Proofs.Files.Beside
import StyleTypings.Proofs.Files.Naming

/-!
# Paths below directories

A path that is joined to a directory has the components of both. It is found again behind
the directory, letter by letter, if no idle parts stand at its ends.
-/

namespace StyleTypings
namespace Path

/-! ## Joining -/

theorem Bare.append
    {text : Text}
    (bare : Bare text)
    (nonempty : text ≠ [])
    (rest : Text) :
    Bare (text ++ '/' :: rest) := by
  obtain ⟨noSlash, noStop, noStopSlash⟩ := bare
  obtain ⟨c, more, rfl⟩ := List.exists_cons_of_ne_nil nonempty
  refine ⟨fun body same => ?_, fun same => ?_, fun body same => ?_⟩
  · obtain ⟨rfl, -⟩ := List.cons.inj same
    exact noSlash more rfl
  · simp at same
  · obtain ⟨rfl, behind⟩ := List.cons.inj same
    cases more with
    | nil => exact noStop rfl
    | cons d others =>
        obtain ⟨rfl, -⟩ := List.cons.inj behind
        exact noStopSlash others rfl

/-- The first part of a bare text is not idle. -/
theorem Bare.exists_first
    {text : Text}
    (bare : Bare text)
    (nonempty : text ≠ []) :
    ∃ first rest, Text.splitAt '/' text = first :: rest ∧ isIdle first = false := by
  obtain ⟨first, rest, split⟩ := List.exists_cons_of_ne_nil (Text.splitAt_ne_nil '/' text)
  refine ⟨first, rest, split, ?_⟩
  cases rest with
  | nil =>
      have whole : text = first := by
        have joined := Text.join_splitAt '/' text
        rwa [split, Text.join, List.intercalate_singleton, eq_comm] at joined
      subst whole
      simp [isIdle, nonempty, bare.noStop]
  | cons second others => simpa [isSolid] using isSolid_of_bare bare split

/-- The lead of a text is that of its beginnings. -/
theorem splitLead_extend {text : Text} (nonempty : text ≠ []) (rest : Text) :
    splitLead (text ++ '/' :: rest) =
      ((splitLead text).1, (splitLead text).2 ++ '/' :: rest) := by
  fun_cases splitLead text with
  | case1 body => rfl
  | case2 => rfl
  | case3 body => rfl
  | case4 body noSlash noStop noStopSlash =>
      exact splitLead_of_bare (Bare.append ⟨noSlash, noStop, noStopSlash⟩ nonempty rest)

/-- The text of an absolute path begins with the separator. -/
theorem exists_text_of_isAbsolute {path : Path} (absolute : path.isAbsolute = true) :
    ∃ body, path.text = '/' :: body :=
  List.head?_eq_some_iff.mp (beq_iff_eq.mp absolute)

theorem Bare.relative {path : Path} (bare : Bare path.text) : path.isAbsolute = false := by
  refine Bool.eq_false_iff.mpr fun absolute => ?_
  obtain ⟨body, text⟩ := exists_text_of_isAbsolute absolute
  exact bare.noSlash body text

/-- The parts of a path behind a directory come after those of the directory. -/
theorem exists_parts_join
    {base path : Path}
    (nonempty : base.text ≠ [])
    (relative : path.isAbsolute = false) :
    ∃ front, (splitLead (base.join path).text).1 = (splitLead base.text).1 ∧
      (base.join path).parts = front ++ Text.splitAt '/' path.text ∧
      front.filter isSolid = base.parts.filter isSolid := by
  unfold join parts
  rw [if_neg (by simp [relative])]
  by_cases slash : base.text.getLast? = some '/'
  · obtain ⟨front, text⟩ := List.getLast?_eq_some_iff.mp slash
    rw [if_pos (.inr slash), text, List.append_assoc, List.singleton_append]
    cases front with
    | nil => exact ⟨[], rfl, rfl, rfl⟩
    | cons c rest =>
        have cut := splitLead_extend (List.cons_ne_nil c rest)
        refine ⟨Text.splitAt '/' (splitLead (c :: rest)).2, ?_, ?_, ?_⟩
        · rw [cut, cut]
        · rw [cut, Text.splitAt_append_cons]
        · rw [cut, Text.splitAt_append_cons, List.filter_append]
          simp [Text.splitAt, isSolid, isIdle]
  · rw [if_neg (by simp [nonempty, slash]), splitLead_extend nonempty]
    exact ⟨_, rfl, Text.splitAt_append_cons _ _ _, rfl⟩

theorem join_ne_nil {base : Path} (nonempty : base.text ≠ []) (path : Path) :
    (base.join path).text ≠ [] := by
  unfold join
  split
  · next absolute =>
      intro empty
      rw [isAbsolute, empty] at absolute
      exact absurd absolute (by decide)
  · split <;> simp [nonempty]

theorem isAbsolute_join {base : Path} (absolute : base.isAbsolute = true) (path : Path) :
    (base.join path).isAbsolute = true := by
  obtain ⟨body, text⟩ := exists_text_of_isAbsolute absolute
  unfold join
  split
  · assumption
  · split <;> simp [isAbsolute, text]

/-- The components of a path behind a directory come after those of the directory. -/
theorem components_join
    {base path : Path}
    (nonempty : base.text ≠ [])
    (bare : Bare path.text) :
    (base.join path).components = base.components ++ path.components := by
  obtain ⟨front, lead, whole, same⟩ := exists_parts_join nonempty bare.relative
  have own : path.parts = Text.splitAt '/' path.text := by
    unfold parts
    rw [splitLead_of_bare bare]
  rw [components_eq, components_eq, components_eq path, lead, whole, List.filter_append, same,
    splitLead_of_bare bare, own, List.map_append, ← List.append_assoc]
  rfl

theorem isAbsolute_of_splitLead
    {path : Path}
    {body : Text}
    (cut : splitLead path.text = (['/'], body)) :
    path.isAbsolute = true := by
  obtain ⟨text⟩ := path
  unfold isAbsolute
  fun_cases splitLead text with
  | case1 body => rfl
  | case2 => cases cut
  | case3 body => cases cut
  | case4 body noSlash noStop noStopSlash =>
      rw [splitLead_of_bare ⟨noSlash, noStop, noStopSlash⟩] at cut
      cases cut

/-- An absolute path has the root among its components. -/
theorem components_ne_nil {path : Path} (absolute : path.isAbsolute = true) :
    path.components ≠ [] := by
  obtain ⟨body, text⟩ := exists_text_of_isAbsolute absolute
  rw [components_eq, text]
  exact nofun

/-! ## Stripping -/

/-- A path that begins and ends with parts that are not idle. -/
structure IsTidy (path : Path) : Prop where
  bare : Bare path.text
  solid : isIdle path.lastPart = false

theorem IsTidy.exists_first {path : Path} (tidy : path.IsTidy) :
    ∃ first rest, Text.splitAt '/' path.text = first :: rest ∧ isIdle first = false := by
  refine tidy.bare.exists_first fun empty => ?_
  have solid := tidy.solid
  rw [lastPart, empty] at solid
  exact absurd solid (by decide)

/-- A tidy path is what is left of it behind a directory. -/
theorem stripBase?_join
    {base path : Path}
    (some : base.components ≠ [])
    (tidy : path.IsTidy) :
    (base.join path).stripBase? base = .some path := by
  have nonempty : base.text ≠ [] := by
    intro empty
    exact some (by simp [components, parts, empty, splitLead, leadComponents, Text.splitAt, isIdle])
  obtain ⟨front, lead, whole, same⟩ := exists_parts_join nonempty tidy.bare.relative
  obtain ⟨first, rest, split, solid⟩ := tidy.exists_first
  have begins : base.components.isPrefixOf (base.join path).components = true := by
    rw [components_join nonempty tidy.bare]
    exact List.isPrefixOf_iff_prefix.mpr (List.prefix_append _ _)
  have count : base.components.length - (leadComponents (splitLead base.text).1).length =
      (front.filter isSolid).length := by
    rw [components_eq, List.length_append, List.length_map, same]
    omega
  obtain ⟨idle, areIdle, dropped⟩ :=
    exists_dropComponents_append front (Text.splitAt '/' path.text)
  have ended : dropIdleEnd (idle ++ Text.splitAt '/' path.text) =
      idle ++ Text.splitAt '/' path.text := by
    rw [path.splitAt_eq, ← List.append_assoc]
    exact dropIdleEnd_append tidy.solid (fun _ none => absurd none List.not_mem_nil) _
  unfold stripBase?
  rw [if_pos begins]
  simp only
  rw [if_neg (fun none => some (List.length_eq_zero_iff.mp none)), lead, count, whole, dropped,
    ended, split, dropIdleStart_append solid areIdle, ← split, Text.join_splitAt]

theorem dropComponents_suffix (count : Nat) (parts : List Text) :
    dropComponents count parts <:+ parts := by
  fun_induction dropComponents count parts with
  | case1 parts => exact List.suffix_refl parts
  | case2 => exact List.suffix_refl []
  | case3 count part rest idle inductionHypothesis =>
      exact inductionHypothesis.trans (List.suffix_cons part rest)
  | case4 count part rest solid inductionHypothesis =>
      exact inductionHypothesis.trans (List.suffix_cons part rest)

/-- What is left of a path behind a directory is not absolute. -/
theorem isAbsolute_of_stripBase?
    {base path rest : Path}
    (some : base.components ≠ [])
    (strips : path.stripBase? base = .some rest) :
    rest.isAbsolute = false := by
  unfold stripBase? at strips
  split at strips
  · simp only [List.length_eq_zero_iff, some, if_false, Option.some.injEq] at strips
    generalize base.components.length - _ = count at strips
    subst strips
    have inner : dropIdleEnd (dropComponents count path.parts) ⊆ path.parts :=
      List.Subset.trans (List.rdropWhile_prefix isIdle _).subset
        (dropComponents_suffix count path.parts).subset
    generalize dropIdleEnd (dropComponents count path.parts) = parts at inner
    cases left : dropIdleStart parts with
    | nil => rfl
    | cons first others =>
        have solid : isIdle first = false := by
          have fits := List.head?_dropWhile_not isIdle parts
          rw [← dropIdleStart, left] at fits
          simpa using fits
        have among : first ∈ path.parts := by
          refine inner ((List.dropWhile_suffix isIdle).subset ?_)
          rw [← dropIdleStart, left]
          exact List.mem_cons_self
        have nonempty : first ≠ [] := by
          rintro rfl
          exact absurd solid (by decide)
        obtain ⟨c, name, rfl⟩ := List.exists_cons_of_ne_nil nonempty
        have simple : c ≠ '/' := fun same =>
          Text.notMem_of_mem_splitAt among (same ▸ List.mem_cons_self)
        cases others <;> simpa [isAbsolute, Text.join, List.intercalate_cons_cons] using simple
  · cases strips

end Path
end StyleTypings
