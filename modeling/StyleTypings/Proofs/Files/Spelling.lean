import StyleTypings.Proofs.Files.Anchoring

/-!
# How the directory of a path is written

The directory of a path is written as the path is, up to the last part that is not idle before
the last one. So if the last part is joined to it again, the idle parts between the two are
missing, and nothing else is.
-/

namespace StyleTypings

/-- A character that is not in the middle of a text is behind the middle or before it. -/
theorem Text.exists_of_append_cons
    {front middle last before behind : Text}
    {c : Char}
    (split : front ++ (middle ++ last) = before ++ c :: behind)
    (outside : c ∉ middle) :
    (∃ name, before = front ++ (middle ++ name)) ∨ ∃ hidden, front = before ++ c :: hidden := by
  rcases List.append_eq_append_iff.mp split with ⟨inner, rfl, back⟩ | ⟨inner, rfl, back⟩
  · rcases List.append_eq_append_iff.mp back with ⟨name, rfl, -⟩ | ⟨more, rfl, rest⟩
    · exact .inl ⟨name, rfl⟩
    · rcases List.cons_eq_append_iff.mp rest with ⟨rfl, -⟩ | ⟨hidden, rfl, -⟩
      · exact .inl ⟨[], by simp⟩
      · exact absurd (List.mem_append_right _ List.mem_cons_self) outside
  · rcases List.cons_eq_append_iff.mp back with ⟨rfl, rest⟩ | ⟨hidden, rfl, -⟩
    · rcases List.append_eq_cons_iff.mp rest with ⟨rfl, -⟩ | ⟨more, rfl, -⟩
      · exact .inl ⟨[], by simp⟩
      · exact absurd List.mem_cons_self outside
    · exact .inr ⟨hidden, rfl⟩

namespace Path

/-- Idle parts with a slash behind each. -/
theorem idle_flatMap {parts : List Text} (idle : ∀ part ∈ parts, isIdle part = true) :
    '\\' ∉ parts.flatMap (· ++ ['/']) ∧
      (parts.flatMap (· ++ ['/']) = [] ∨ '/' ∈ parts.flatMap (· ++ ['/'])) := by
  constructor
  · intro among
    obtain ⟨part, isPart, inside⟩ := List.mem_flatMap.mp among
    rcases isIdle_iff.mp (idle part isPart) with rfl | rfl <;> exact absurd inside (by decide)
  · cases parts with
    | nil => exact .inl rfl
    | cons first others => exact .inr (by simp)

/-- Parts that do not end in an idle one make a text that does not end in a slash. -/
theorem getLast?_join_dropIdleEnd
    {parts : List Text}
    (without : ∀ part ∈ parts, '/' ∉ part)
    (proper : dropIdleEnd parts ≠ []) :
    Text.join ['/'] (dropIdleEnd parts) ≠ [] ∧
      (Text.join ['/'] (dropIdleEnd parts)).getLast? ≠ some '/' := by
  have solid : ¬ isIdle ((dropIdleEnd parts).getLast proper) = true :=
    List.rdropWhile_last_not isIdle parts proper
  have simple : ∀ part ∈ dropIdleEnd parts, '/' ∉ part := fun part among =>
    without part ((List.rdropWhile_prefix isIdle parts).subset among)
  have split := Text.splitAt_join proper simple
  -- Nothing stands behind a slash at the end, so that the last part would be idle.
  have ends {front : List Text} (empty : dropIdleEnd parts = front ++ [[]]) : False := by
    simp only [empty, List.getLast_concat] at solid
    exact solid rfl
  constructor
  · intro empty
    rw [empty] at split
    exact @ends [] split.symm
  · intro slash
    obtain ⟨text, isText⟩ := List.getLast?_eq_some_iff.mp slash
    rw [isText, Text.splitAt_append_cons] at split
    exact ends split.symm

/-- A path that ends in a proper part is written as its directory, idle parts and the last part,
and the directory joined with the last part is written without the idle parts. -/
theorem exists_spelling
    {path : Path}
    (plain : path.BeginsPlainly)
    (solid : isIdle path.lastPart = false) :
    ∃ front idle : Text,
      path.text = front ++ (idle ++ path.lastPart) ∧
      ((path.parent?.getD ⟨[]⟩).join ⟨path.lastPart⟩).text = front ++ path.lastPart ∧
      (path.parent?.getD ⟨[]⟩).text <+: front ∧
      '\\' ∉ idle ∧ (idle = [] ∨ '/' ∈ idle) := by
  obtain ⟨before, split⟩ := exists_parts_of_lastPart solid
  have simple : ∀ part ∈ before ++ [path.lastPart], '/' ∉ part := fun part among =>
    Text.notMem_of_mem_splitAt (split ▸ among)
  have relative : isAbsolute ⟨path.lastPart⟩ = false :=
    Bool.eq_false_iff.mpr fun absolute => simple path.lastPart (by simp)
      (List.mem_of_mem_head? (by simpa [isAbsolute] using absolute))
  have whole : path.text =
      (splitLead path.text).1 ++ Text.join ['/'] (before ++ [path.lastPart]) := by
    rw [← split, parts, Text.join_splitAt, splitLead_fst_append_snd]
  have dropped : before = dropIdleEnd before ++ before.rtakeWhile isIdle :=
    List.rdropWhile_append_rtakeWhile.symm
  have areIdle : ∀ part ∈ before.rtakeWhile isIdle, isIdle part = true :=
    fun _ => List.mem_rtakeWhile_imp
  rw [parent?_eq split solid (by simp), Option.getD_some]
  generalize before.rtakeWhile isIdle = idle at dropped areIdle
  obtain ⟨noBackslash, noSlash⟩ := idle_flatMap areIdle
  by_cases proper : dropIdleEnd before = []
  · rw [proper] at dropped ⊢
    refine ⟨(splitLead path.text).1, _, ?_, ?_, ?_, noBackslash, noSlash⟩
    · rw [dropped, List.nil_append, Text.join_concat] at whole
      exact whole
    · rcases splitLead_cases path.text with ⟨_, cut⟩ | cut | ⟨_, cut⟩ | ⟨cut, -⟩
      · rw [cut]
        simp [join, relative, Text.join]
      · exact absurd (by rw [cut]) plain
      · exact absurd (by rw [cut]) plain
      · rw [cut]
        simp [join, relative, Text.join]
    · simp [Text.join]
  · obtain ⟨nonempty, noEnd⟩ := getLast?_join_dropIdleEnd
      (fun part among => simple part (List.mem_append_left _ among)) proper
    refine ⟨(splitLead path.text).1 ++ Text.join ['/'] (dropIdleEnd before) ++ ['/'], _, ?_, ?_,
      List.prefix_append _ _, noBackslash, noSlash⟩
    · have joined := @Text.join_append ['/'] (dropIdleEnd before) (idle ++ [path.lastPart]) proper
        (by simp)
      rw [← List.append_assoc, ← dropped, Text.join_concat _ idle] at joined
      refine whole.trans ?_
      rw [joined]
      simp only [List.append_assoc]
    · unfold join
      rw [if_neg (by simp [relative]), if_neg]
      · simp
      · simp [nonempty, List.getLast?_append_of_ne_nil _ nonempty, noEnd]

end Path
end StyleTypings
