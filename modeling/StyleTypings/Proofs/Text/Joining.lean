import StyleTypings.Text.Basic

/-!
# Joining and splitting

Splitting a text at a character is the splitting of lists, so it takes apart what
was joined by that character from parts without it. Dropping repeated texts leaves
no more of them.
-/

namespace StyleTypings
namespace Text

/-- Splitting a text is splitting the list of its characters. -/
theorem splitAt_eq_splitOn (separator : Char) (text : Text) :
    splitAt separator text = text.splitOn separator := by
  induction text with
  | nil => simp [splitAt]
  | cons c rest inductionHypothesis =>
      rw [splitAt, inductionHypothesis, List.splitOn_cons_eq_if_modifyHead]
      by_cases separates : c = separator
      · rw [if_pos separates, if_pos (beq_iff_eq.mpr separates)]
      · have differs : ¬ (c == separator) = true := by simpa using separates
        rw [if_neg separates, if_neg differs]
        cases parts : List.splitOn separator rest with
        | nil => exact absurd parts (List.splitOn_ne_nil separator rest)
        | cons first others => rfl

theorem splitAt_ne_nil (separator : Char) (text : Text) : splitAt separator text ≠ [] := by
  rw [splitAt_eq_splitOn]
  exact List.splitOn_ne_nil separator text

/-- Parts without the separator are found again. -/
theorem splitAt_join
    {separator : Char}
    {parts : List Text}
    (nonempty : parts ≠ [])
    (without : ∀ part ∈ parts, separator ∉ part) :
    splitAt separator (join [separator] parts) = parts := by
  rw [splitAt_eq_splitOn]
  exact List.splitOn_intercalate separator without nonempty

theorem join_cons_cons (separator first second : Text) (others : List Text) :
    join separator (first :: second :: others) =
      first ++ (separator ++ join separator (second :: others)) := by
  unfold join
  rw [List.intercalate_cons_cons, List.append_assoc]

/-- A joined text has only characters of the separator and of the parts. -/
theorem mem_join
    {separator : Text}
    {parts : List Text}
    {c : Char}
    (present : c ∈ join separator parts) :
    c ∈ separator ∨ ∃ part ∈ parts, c ∈ part := by
  induction parts with
  | nil => simp [join] at present
  | cons first others inductionHypothesis =>
      cases others with
      | nil =>
          rw [join, List.intercalate_singleton] at present
          exact Or.inr ⟨first, List.mem_cons_self, present⟩
      | cons second more =>
          rw [join_cons_cons] at present
          rcases List.mem_append.mp present with inFirst | inRest
          · exact Or.inr ⟨first, List.mem_cons_self, inFirst⟩
          · rcases List.mem_append.mp inRest with inSeparator | inOthers
            · exact Or.inl inSeparator
            · rcases inductionHypothesis inOthers with inSeparator | ⟨part, among, here⟩
              · exact Or.inl inSeparator
              · exact Or.inr ⟨part, List.mem_cons_of_mem first among, here⟩

/-- Only no parts, or a single empty one, join to the empty text. -/
theorem join_eq_nil
    {separator : Char}
    {parts : List Text}
    (empty : join [separator] parts = []) :
    parts = [] ∨ parts = [[]] := by
  cases parts with
  | nil => exact Or.inl rfl
  | cons first others =>
      cases others with
      | nil =>
          rw [join, List.intercalate_singleton] at empty
          exact Or.inr (by rw [empty])
      | cons second more =>
          rw [join_cons_cons] at empty
          simp at empty

/-- Joining puts together what was split. -/
theorem join_splitAt (separator : Char) (text : Text) :
    join [separator] (splitAt separator text) = text := by
  rw [splitAt_eq_splitOn]
  exact List.intercalate_splitOn separator

/-- No part has the separator. -/
theorem notMem_of_mem_splitAt
    {separator : Char}
    {text part : Text}
    (present : part ∈ splitAt separator text) :
    separator ∉ part := by
  induction text generalizing part with
  | nil =>
      obtain rfl := List.mem_singleton.mp present
      exact nofun
  | cons c rest inductionHypothesis =>
      rw [splitAt] at present
      split at present
      · rcases List.mem_cons.mp present with rfl | later
        · exact nofun
        · exact inductionHypothesis later
      · next differs =>
          split at present
          · obtain rfl := List.mem_singleton.mp present
            simpa [eq_comm] using differs
          · next first others parts =>
              rcases List.mem_cons.mp present with rfl | later
              · have inFirst := inductionHypothesis (parts ▸ List.mem_cons_self)
                simpa [eq_comm, inFirst] using differs
              · exact inductionHypothesis (parts ▸ List.mem_cons_of_mem first later)

/-- Texts around a separator are split by themselves. -/
theorem splitAt_append_cons (separator : Char) (front back : Text) :
    splitAt separator (front ++ separator :: back) =
      splitAt separator front ++ splitAt separator back := by
  induction front with
  | nil => simp [splitAt]
  | cons c rest inductionHypothesis =>
      rw [List.cons_append, splitAt, splitAt, inductionHypothesis]
      split
      · rfl
      · cases parts : splitAt separator rest with
        | nil => exact absurd parts (splitAt_ne_nil separator rest)
        | cons first others => rfl

theorem isPrefixOf?_singleton (separator c : Char) (rest : Text) :
    [separator].isPrefixOf? (c :: rest) = if separator == c then some rest else none := rfl

/-- A text splits at a character exactly if it has it. -/
theorem isSome_splitFirst?_iff (separator : Char) (text : Text) :
    (splitFirst? [separator] text).isSome = true ↔ separator ∈ text := by
  induction text with
  | nil => exact ⟨nofun, nofun⟩
  | cons c rest inductionHypothesis =>
      unfold splitFirst?
      rw [isPrefixOf?_singleton]
      by_cases same : separator = c
      · simp [same]
      · simp [same, inductionHypothesis]

/-- Two lists of parts are joined one after the other. -/
theorem join_append
    {separator : Text}
    {front back : List Text}
    (nonempty : front ≠ [])
    (proper : back ≠ []) :
    join separator (front ++ back) =
      join separator front ++ (separator ++ join separator back) := by
  induction front with
  | nil => exact absurd rfl nonempty
  | cons first others inductionHypothesis =>
      cases others with
      | nil =>
          obtain ⟨next, more, rfl⟩ := List.exists_cons_of_ne_nil proper
          rw [List.singleton_append, join_cons_cons]
          simp [join]
      | cons second more =>
          rw [List.cons_append, List.cons_append, join_cons_cons, ← List.cons_append,
            inductionHypothesis (List.cons_ne_nil second more), join_cons_cons]
          simp only [List.append_assoc]

/-- Behind all parts but the last stands the separator. -/
theorem join_concat (separator : Text) (front : List Text) (last : Text) :
    join separator (front ++ [last]) = front.flatMap (· ++ separator) ++ last := by
  induction front with
  | nil => simp [join]
  | cons first others inductionHypothesis =>
      have proper : others ++ [last] ≠ [] := by simp
      have whole := @join_append separator [first] _ (List.cons_ne_nil first []) proper
      rw [List.singleton_append] at whole
      rw [List.cons_append, whole, inductionHypothesis, List.flatMap_cons]
      simp [join]

/-- Parts joined with parts behind them. -/
theorem exists_join_append
    {separator : Char}
    {front : List Text}
    (nonempty : front ≠ [])
    (back : List Text) :
    ∃ rest : Text, join [separator] (front ++ back) = join [separator] front ++ rest ∧
      ∀ c, rest.head? = some c → c = separator := by
  induction front with
  | nil => exact absurd rfl nonempty
  | cons part others inductionHypothesis =>
      cases others with
      | nil =>
          cases back with
          | nil => exact ⟨[], by simp, nofun⟩
          | cons next more =>
              refine ⟨separator :: join [separator] (next :: more), ?_, ?_⟩
              · have alone : join [separator] [part] = part := List.intercalate_singleton
                rw [List.singleton_append, join_cons_cons, alone]
                rfl
              · exact fun c first => (Option.some.inj first).symm
      | cons second more =>
          obtain ⟨rest, joined, ends⟩ := inductionHypothesis (List.cons_ne_nil _ _)
          refine ⟨rest, ?_, ends⟩
          rw [List.cons_append, List.cons_append, join_cons_cons, ← List.cons_append,
            joined, join_cons_cons]
          simp

/-- A text behind the last part is behind the whole. -/
theorem join_concat_append (separator : Text) (front : List Text) (last suffix : Text) :
    join separator (front ++ [last ++ suffix]) = join separator (front ++ [last]) ++ suffix := by
  induction front with
  | nil => simp [join]
  | cons first others inductionHypothesis =>
      cases others with
      | nil => simp [join]
      | cons second more =>
          simp only [List.cons_append, join_cons_cons] at inductionHypothesis ⊢
          rw [inductionHypothesis]
          simp

/-- Induction along the recursion that drops repetitions: behind the first text come the
others that differ from it. -/
@[elab_as_elim]
theorem eraseDups_induction
    {motive : List Text → Prop}
    (nil : motive [])
    (cons : ∀ text rest, motive (rest.filter fun other => !other == text) → motive (text :: rest))
    (texts : List Text) :
    motive texts := by
  induction size : texts.length using Nat.strongRecOn generalizing texts with
  | _ count inductionHypothesis =>
      cases texts with
      | nil => exact nil
      | cons text rest =>
          have shorter : (rest.filter fun other => !other == text).length < count :=
            size ▸ Nat.lt_succ_of_le (List.length_filter_le _ _)
          exact cons text rest (inductionHypothesis _ shorter _ rfl)

/-- Without repetitions there are no more texts. -/
theorem length_eraseDups_le (texts : List Text) :
    texts.eraseDups.length ≤ texts.length := by
  induction texts using eraseDups_induction with
  | nil => exact Nat.zero_le _
  | cons text rest inductionHypothesis =>
      rw [List.eraseDups_cons]
      exact Nat.succ_le_succ (Nat.le_trans inductionHypothesis (List.length_filter_le _ _))

/-- Repetitions may be dropped before or after a filter. -/
theorem eraseDups_filter (keeps : Text → Bool) (texts : List Text) :
    (texts.filter keeps).eraseDups = texts.eraseDups.filter keeps := by
  induction texts using eraseDups_induction with
  | nil => rfl
  | cons text rest inductionHypothesis =>
      rw [List.eraseDups_cons]
      by_cases kept : keeps text = true
      · rw [List.filter_cons_of_pos kept, List.filter_cons_of_pos kept, List.eraseDups_cons,
          List.filter_filter, ← inductionHypothesis, List.filter_filter]
        simp only [Bool.and_comm]
      · rw [List.filter_cons_of_neg kept, List.filter_cons_of_neg kept, ← inductionHypothesis,
          List.filter_filter]
        refine congrArg List.eraseDups (List.filter_congr fun other _ => ?_)
        by_cases same : other = text
        · simp [same, kept]
        · simp [same]

theorem eraseDups_eraseDups (texts : List Text) : texts.eraseDups.eraseDups = texts.eraseDups := by
  induction texts using eraseDups_induction with
  | nil => rfl
  | cons text rest inductionHypothesis =>
      rw [List.eraseDups_cons, List.eraseDups_cons, ← eraseDups_filter, List.filter_filter]
      simp only [Bool.and_self]
      rw [inductionHypothesis]

/-- Repetitions may be dropped from two lists before they are dropped from both. -/
theorem eraseDups_append_eraseDups (front back : List Text) :
    (front.eraseDups ++ back.eraseDups).eraseDups = (front ++ back).eraseDups := by
  have same : (fun text => !front.eraseDups.contains text) = fun text =>
      !front.contains text := by
    funext text
    rw [Bool.eq_iff_iff]
    simp
  rw [List.eraseDups_append, List.eraseDups_append, eraseDups_eraseDups]
  unfold List.removeAll
  simp only [List.elem_eq_contains, same]
  rw [eraseDups_filter, eraseDups_filter, eraseDups_eraseDups]

end Text
end StyleTypings
