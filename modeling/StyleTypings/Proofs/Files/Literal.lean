import StyleTypings.Proofs.Files.Following

/-!
# Where the walk of a glob starts

The walk of a glob starts from the leading parts of the pattern that have no sign of a glob. They
are put together with one slash between any two, however many slashes and full stops the pattern
has there. The last part of the pattern is left out if it stands for itself like all others, and
if the pattern is put together in the same way.
-/

namespace StyleTypings

theorem Text.mem_join_of_mem
    {separator part : Text}
    {parts : List Text}
    {c : Char}
    (isPart : part ∈ parts)
    (among : c ∈ part) :
    c ∈ join separator parts := by
  obtain ⟨front, back, rfl⟩ := List.append_of_mem isPart
  cases back with
  | nil =>
      rw [join_concat]
      exact List.mem_append_right _ among
  | cons next others =>
      have whole := @join_append separator (front ++ [part]) (next :: others) (by simp)
        (List.cons_ne_nil next others)
      rw [List.append_assoc, List.singleton_append] at whole
      rw [whole, join_concat]
      exact List.mem_append_left _ (List.mem_append_right _ among)

namespace Path

/-! ## Paths put together from their parts -/

/-- The path of some parts, with one slash between any two and one in front if it is absolute. -/
def ofParts (absolute : Bool) (parts : List Text) : Path :=
  ⟨(if absolute then ['/'] else []) ++ Text.join ['/'] parts⟩

/-- The components of a lead that is no full stop. -/
def rootOf (absolute : Bool) : List PathComponent :=
  if absolute then [.root] else []

/-- Whether a text can be a part that is a component. -/
def isPart (text : Text) : Bool :=
  isSolid text && !text.contains '/'

theorem isPart_iff {text : Text} : isPart text = true ↔ isSolid text = true ∧ '/' ∉ text := by
  simp [isPart]

variable {absolute : Bool} {parts more : List Text} {path other : Path}

theorem isPart_of_mem_names (path : Path) : ∀ part ∈ path.names, isPart part = true := by
  intro part among
  obtain ⟨isPart, solid⟩ := List.mem_filter.mp among
  exact isPart_iff.mpr ⟨solid, Text.notMem_of_mem_splitAt isPart⟩

theorem filter_of_areParts (areParts : ∀ part ∈ parts, isPart part = true) :
    parts.filter isSolid = parts :=
  List.filter_eq_self.mpr fun part among => (isPart_iff.mp (areParts part among)).1

theorem bare_of_areParts (areParts : ∀ part ∈ parts, isPart part = true) :
    Bare (Text.join ['/'] parts) := by
  refine bare_join (fun first isFirst => ?_) fun part among => ?_
  · exact (isPart_iff.mp (areParts first (List.mem_of_mem_head? isFirst))).1
  · exact (isPart_iff.mp (areParts part among)).2

theorem splitLead_ofParts (areParts : ∀ part ∈ parts, isPart part = true) :
    splitLead (ofParts absolute parts).text =
      (if absolute then ['/'] else [], Text.join ['/'] parts) := by
  cases absolute with
  | true => rfl
  | false => exact splitLead_of_bare (bare_of_areParts areParts)

theorem beginsPlainly_ofParts (areParts : ∀ part ∈ parts, isPart part = true) :
    (ofParts absolute parts).BeginsPlainly := by
  rw [BeginsPlainly, splitLead_ofParts areParts]
  cases absolute <;> simp

theorem isAbsolute_ofParts (areParts : ∀ part ∈ parts, isPart part = true) :
    (ofParts absolute parts).isAbsolute = absolute := by
  cases absolute with
  | true => rfl
  | false => exact @Bare.relative (ofParts false parts) (bare_of_areParts areParts)

/-- The names of a path that is put together are its parts. -/
theorem names_ofParts (areParts : ∀ part ∈ parts, isPart part = true) :
    (ofParts absolute parts).names = parts := by
  have without : ∀ part ∈ parts, '/' ∉ part := fun part among =>
    (isPart_iff.mp (areParts part among)).2
  have same := filter_splitAt_join without
  rw [filter_of_areParts areParts] at same
  unfold names Path.parts
  rw [splitLead_ofParts areParts]
  exact same

theorem splitAt_ofParts
    (areParts : ∀ part ∈ parts, isPart part = true)
    (proper : parts ≠ []) :
    Text.splitAt '/' (ofParts absolute parts).text =
      (if absolute then [[]] else []) ++ parts := by
  have same := Text.splitAt_join proper fun part among => (isPart_iff.mp (areParts part among)).2
  cases absolute with
  | true => exact congrArg ([] :: ·) same
  | false => exact same

theorem names_eq (path : Path) : path.names = (Text.splitAt '/' path.text).filter isSolid :=
  path.filter_splitAt.symm

/-- A path that begins plainly has its names for components, behind the root if it is absolute. -/
theorem BeginsPlainly.components_eq (plain : path.BeginsPlainly) :
    path.components = rootOf path.isAbsolute ++ path.names.map componentOf := by
  obtain ⟨text⟩ := path
  cases form : isAbsolute ⟨text⟩ with
  | true =>
      obtain ⟨body, rfl⟩ := exists_text_of_isAbsolute form
      rfl
  | false =>
      rw [Path.components_eq, splitLead_of_bare (plain.bare form)]
      rfl

theorem componentOf_injective : Function.Injective componentOf := by
  intro part other same
  have texts := congrArg PathComponent.text same
  rwa [text_componentOf, text_componentOf] at texts

/-- Of two paths of one form the names of one begin those of the other if the components do. -/
theorem BeginsPlainly.components_prefix_iff
    (plain : path.BeginsPlainly)
    (plainToo : other.BeginsPlainly)
    (form : other.isAbsolute = path.isAbsolute) :
    path.components <+: other.components ↔ path.names <+: other.names := by
  rw [plain.components_eq, plainToo.components_eq, form, List.prefix_append_right_inj,
    List.prefix_map_iff_of_injective componentOf_injective]

/-- Parts are joined behind others. -/
theorem join_ofParts
    (areParts : ∀ part ∈ parts, isPart part = true)
    (areMore : ∀ part ∈ more, isPart part = true)
    (proper : more ≠ []) :
    (ofParts absolute parts).join ⟨Text.join ['/'] more⟩ = ofParts absolute (parts ++ more) := by
  have relative : isAbsolute ⟨Text.join ['/'] more⟩ = false :=
    (bare_of_areParts areMore).relative
  unfold join
  rw [if_neg (by simp [relative])]
  rcases List.eq_nil_or_concat parts with rfl | ⟨front, last, rfl⟩
  · cases absolute <;> rfl
  · obtain ⟨solid, simple⟩ := isPart_iff.mp (areParts last (by simp))
    have nonempty : last ≠ [] := by
      rintro rfl
      exact absurd solid (by decide)
    have noEnd : last.getLast? ≠ some '/' := fun ends => simple (List.mem_of_getLast? ends)
    rw [if_neg]
    · rw [ofParts, ofParts, Text.join_append (by simp) proper, List.append_assoc]
      rfl
    · rw [ofParts, List.concat_eq_append, Text.join_concat, ← List.append_assoc,
        List.isEmpty_iff, List.getLast?_append_of_ne_nil _ nonempty]
      simp [nonempty, noEnd]

theorem foldl_join_componentOf
    (areParts : ∀ part ∈ parts, isPart part = true)
    (areMore : ∀ part ∈ more, isPart part = true) :
    (more.map componentOf).foldl (fun start component => start.join ⟨component.text⟩)
        (ofParts absolute parts) =
      ofParts absolute (parts ++ more) := by
  induction more generalizing parts with
  | nil => simp
  | cons part rest inductionHypothesis =>
      obtain ⟨first, others⟩ := List.forall_mem_cons.mp areMore
      have alone : ∀ other ∈ [part], isPart other = true := by simpa using first
      have joined := @join_ofParts absolute parts [part] areParts alone (List.cons_ne_nil part [])
      rw [Text.join, List.intercalate_singleton] at joined
      rw [List.map_cons, List.foldl_cons, text_componentOf, joined,
        inductionHypothesis (List.forall_mem_append.mpr ⟨areParts, alone⟩) others,
        List.append_assoc, List.singleton_append]

/-- Components joined one after the other make the path of their parts. -/
theorem foldl_join_rootOf (areParts : ∀ part ∈ parts, isPart part = true) :
    (rootOf absolute ++ parts.map componentOf).foldl
        (fun start component => start.join ⟨component.text⟩) ⟨[]⟩ =
      ofParts absolute parts := by
  have none : ∀ part ∈ ([] : List Text), isPart part = true := nofun
  rw [List.foldl_append]
  cases absolute with
  | true => exact @foldl_join_componentOf true _ _ none areParts
  | false => exact @foldl_join_componentOf false _ _ none areParts

/-- The parent of such a path is put together from all parts but the last. -/
theorem parent?_ofParts (areParts : ∀ part ∈ parts, isPart part = true) :
    (ofParts absolute parts).parent?.getD (ofParts absolute parts) =
      ofParts absolute parts.dropLast := by
  rcases List.eq_nil_or_concat parts with rfl | ⟨front, last, rfl⟩
  · cases absolute <;> rfl
  · rw [List.concat_eq_append] at areParts ⊢
    have cut := @splitLead_ofParts absolute _ areParts
    obtain ⟨areFront, isLast⟩ := List.forall_mem_append.mp areParts
    have solid : isIdle last = false := by
      simpa [isSolid] using (isPart_iff.mp (isLast last (by simp))).1
    have split : (ofParts absolute (front ++ [last])).parts = front ++ [last] := by
      unfold Path.parts
      rw [cut]
      exact Text.splitAt_join (by simp) fun part among => (isPart_iff.mp (areParts part among)).2
    have kept : dropIdleEnd front = front := by
      rcases List.eq_nil_or_concat front with rfl | ⟨before, next, rfl⟩
      · rfl
      · rw [List.concat_eq_append] at areFront ⊢
        refine dropIdleEnd_append ?_ (by simp) before
        simpa [isSolid] using (isPart_iff.mp (areFront next (by simp))).1
    rw [parent?_eq split solid (by simp), cut, kept, List.dropLast_concat]
    rfl

/-- A path that is written without a full stop or nothing for a part. -/
structure IsClean (path : Path) : Prop where
  plain : path.BeginsPlainly
  solid : ∀ part ∈ path.parts, isSolid part = true

instance (path : Path) : Decidable path.BeginsPlainly :=
  inferInstanceAs (Decidable ((splitLead path.text).1 ≠ ['.']))

instance (path : Path) : Decidable path.IsClean :=
  decidable_of_iff (path.BeginsPlainly ∧ ∀ part ∈ path.parts, isSolid part = true)
    ⟨fun ⟨plain, solid⟩ => ⟨plain, solid⟩, fun ⟨plain, solid⟩ => ⟨plain, solid⟩⟩

/-- A clean path is put together from its names. -/
theorem IsClean.eq_ofParts (clean : path.IsClean) :
    path = ofParts path.isAbsolute path.names := by
  obtain ⟨text⟩ := path
  have names : names ⟨text⟩ = parts ⟨text⟩ := List.filter_eq_self.mpr clean.solid
  rw [names, ofParts, parts, Text.join_splitAt]
  cases form : isAbsolute ⟨text⟩ with
  | true =>
      obtain ⟨body, rfl⟩ := exists_text_of_isAbsolute form
      rfl
  | false =>
      rw [splitLead_of_bare (clean.plain.bare form)]
      rfl

end Path

namespace FilePattern

variable {pattern : Text}

/-! ## The literal start of a pattern -/

/-- Whether a part has no sign of a glob. -/
def isQuiet (part : Text) : Bool :=
  !hasGlobSign (Path.componentOf part)

theorem isQuiet_iff {part : Text} :
    isQuiet part = true ↔ ∀ c ∈ part, c ≠ '*' ∧ c ≠ '?' ∧ c ≠ '[' ∧ c ≠ '\x7b' := by
  simp [isQuiet, hasGlobSign, Path.text_componentOf, and_assoc]

theorem isQuiet_of_isIdle {part : Text} (idle : Path.isIdle part = true) :
    isQuiet part = true := by
  rcases Path.isIdle_iff.mp idle with rfl | rfl <;> rfl

/-- The leading names of a pattern that have no sign of a glob. -/
def quietNames (pattern : Text) : List Text :=
  (Path.names ⟨pattern⟩).takeWhile isQuiet

/-- The names of the path from which a pattern is walked. -/
def startNames (pattern : Text) : List Text :=
  if (Path.ofParts (Path.isAbsolute ⟨pattern⟩) (quietNames pattern)).text = pattern then
    (quietNames pattern).dropLast
  else
    quietNames pattern

theorem isPart_of_mem_quietNames : ∀ part ∈ quietNames pattern, Path.isPart part = true :=
  fun part among => Path.isPart_of_mem_names _ part ((List.takeWhile_prefix _).subset among)

theorem startNames_prefix_quietNames (pattern : Text) :
    startNames pattern <+: quietNames pattern := by
  unfold startNames
  split
  · exact List.dropLast_prefix _
  · exact List.prefix_rfl

theorem isPart_of_mem_startNames : ∀ part ∈ startNames pattern, Path.isPart part = true := by
  intro part among
  have begins := startNames_prefix_quietNames pattern
  exact isPart_of_mem_quietNames part (begins.subset among)

theorem takeWhile_components (plain : Path.BeginsPlainly ⟨pattern⟩) :
    ((Path.components ⟨pattern⟩).takeWhile fun component => !hasGlobSign component) =
      Path.rootOf (Path.isAbsolute ⟨pattern⟩) ++ (quietNames pattern).map Path.componentOf := by
  rw [plain.components_eq, List.takeWhile_append_of_pos, List.takeWhile_map]
  · rfl
  · cases Path.isAbsolute ⟨pattern⟩ <;> decide

/-- The walk starts from the path of the names of the start. -/
theorem literalStart_eq (plain : Path.BeginsPlainly ⟨pattern⟩) :
    literalStart pattern = Path.ofParts (Path.isAbsolute ⟨pattern⟩) (startNames pattern) := by
  have areParts := @isPart_of_mem_quietNames pattern
  unfold literalStart startNames
  rw [takeWhile_components plain]
  simp only [Path.foldl_join_rootOf areParts]
  split
  · exact Path.parent?_ofParts areParts
  · rfl

/-! ## The pattern behind its start -/

theorem quietNames_eq (pattern : Text) :
    quietNames pattern = ((Text.splitAt '/' pattern).takeWhile isQuiet).filter Path.isSolid := by
  rw [quietNames, Path.names_eq, List.takeWhile_filter]
  congr 2
  funext part
  cases idle : Path.isIdle part with
  | true => simp [Path.isSolid, idle, isQuiet_of_isIdle idle]
  | false => simp [Path.isSolid, idle]

theorem quietNames_of_forall (quiet : ∀ part ∈ Text.splitAt '/' pattern, isQuiet part = true) :
    quietNames pattern = (Text.splitAt '/' pattern).filter Path.isSolid := by
  rw [quietNames_eq, List.takeWhile_eq_self_iff.mpr quiet]

/-- A pattern that is put together from its leading names has no sign of a glob. -/
theorem forall_quiet_of_ofParts
    (whole : Path.ofParts (Path.isAbsolute ⟨pattern⟩) (quietNames pattern) = ⟨pattern⟩) :
    ∀ part ∈ Text.splitAt '/' pattern, isQuiet part = true := by
  have areParts := @isPart_of_mem_quietNames pattern
  have names := @Path.names_ofParts (Path.isAbsolute ⟨pattern⟩) _ areParts
  rw [whole, Path.names_eq, quietNames_eq] at names
  have split := (@List.takeWhile_append_dropWhile _ isQuiet (Text.splitAt '/' pattern)).symm
  rw [← List.dropWhile_eq_nil_iff]
  by_contra proper
  obtain ⟨first, others, isRest⟩ := List.exists_cons_of_ne_nil proper
  have loud := List.head?_dropWhile_not isQuiet (Text.splitAt '/' pattern)
  rw [isRest] at loud split
  -- The first part with a sign would be a name too many.
  have solid : Path.isSolid first = true := by
    cases idle : Path.isIdle first with
    | true => exact absurd (isQuiet_of_isIdle idle) (by simpa using loud)
    | false => simp [Path.isSolid, idle]
  have sizes := congrArg (List.length ∘ List.filter Path.isSolid) split
  simp only [Function.comp_apply, names, List.filter_append, List.filter_cons_of_pos solid,
    List.length_append, List.length_cons] at sizes
  omega

/-- Without its last part such a pattern has all of its names but the last. -/
theorem exists_dropLast_of_ofParts
    (whole : Path.ofParts (Path.isAbsolute ⟨pattern⟩) (quietNames pattern) = ⟨pattern⟩) :
    ∃ front last, Text.splitAt '/' pattern = front ++ [last] ∧
      front.filter Path.isSolid = (quietNames pattern).dropLast := by
  have areParts := @isPart_of_mem_quietNames pattern
  have names := quietNames_of_forall (forall_quiet_of_ofParts whole)
  have text : pattern = (Path.ofParts (Path.isAbsolute ⟨pattern⟩) (quietNames pattern)).text :=
    (congrArg Path.text whole).symm
  rcases List.eq_nil_or_concat (quietNames pattern) with none | ⟨front, last, split⟩
  · have parts := Path.splitAt_eq ⟨pattern⟩
    rw [none, parts, List.filter_append, eq_comm, List.append_eq_nil_iff] at names
    exact ⟨_, _, parts, by rw [none, names.1, List.dropLast_nil]⟩
  · rw [List.concat_eq_append] at split
    refine ⟨(if Path.isAbsolute ⟨pattern⟩ then [[]] else []) ++ front, last, ?_, ?_⟩
    · rw [List.append_assoc, ← split]
      conv_lhs => rw [text]
      exact Path.splitAt_ofParts areParts (by simp [split])
    · rw [split] at areParts ⊢
      obtain ⟨areFront, -⟩ := List.forall_mem_append.mp areParts
      rw [List.filter_append, Path.filter_of_areParts areFront, List.dropLast_concat]
      cases Path.isAbsolute ⟨pattern⟩ <;> rfl

/-- A pattern goes on with a slash behind its start, unless it has no sign of a glob at all. -/
theorem exists_startNames (pattern : Text) :
    (∃ front back, Text.splitAt '/' pattern = front ++ back ∧ back ≠ [] ∧
        front.filter Path.isSolid = startNames pattern) ∨
      startNames pattern = quietNames pattern ∧
        ∀ part ∈ Text.splitAt '/' pattern, isQuiet part = true := by
  unfold startNames
  split
  · next whole =>
      obtain ⟨front, last, split, isFront⟩ := exists_dropLast_of_ofParts (congrArg Path.mk whole)
      exact .inl ⟨front, [last], split, List.cons_ne_nil last [], isFront⟩
  · by_cases quiet : ∀ part ∈ Text.splitAt '/' pattern, isQuiet part = true
    · exact .inr ⟨rfl, quiet⟩
    · exact .inl ⟨_, _, List.takeWhile_append_dropWhile.symm,
        mt List.dropWhile_eq_nil_iff.mp quiet, (quietNames_eq pattern).symm⟩

end FilePattern
end StyleTypings
