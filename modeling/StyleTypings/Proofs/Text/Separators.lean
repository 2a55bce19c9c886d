import StyleTypings.Proofs.Text.Trimming

/-!
# Texts cut at separators of several characters

A text is cut at the last occurrence of a separator just if the separator does not occur again
behind the place where that occurrence begins. A character that a text does not have begins no
separator there, and neither does a blank if the character behind it is another than that of the
separator.
-/

namespace StyleTypings
namespace Text

/-! ## Where a separator begins -/

/-- In a text without its first character no separator begins. -/
theorem infix_append_iff_of_notMem {c : Char} {more front : Text} (absent : c ∉ front)
    (back : Text) :
    c :: more <:+: front ++ back ↔ c :: more <:+: back := by
  induction front with
  | nil => rfl
  | cons d rest inductionHypothesis =>
      obtain ⟨differs, later⟩ := List.ne_and_not_mem_of_not_mem_cons absent
      rw [List.cons_append, List.infix_cons_iff, inductionHypothesis later]
      exact or_iff_right fun begins => differs (List.cons_prefix_cons.mp begins).1

/-- Neither does one begin in front of a word that has another first character than the one
behind the first of the separator. -/
theorem infix_word_iff
    {c second first : Char}
    {more rest : Text}
    (differs : second ≠ first)
    (absent : c ∉ first :: rest)
    (back : Text) :
    c :: second :: more <:+: c :: (first :: rest ++ back) ↔ c :: second :: more <:+: back := by
  rw [List.infix_cons_iff, infix_append_iff_of_notMem absent]
  refine or_iff_right fun begins => differs ?_
  rw [List.cons_append, List.cons_prefix_cons, List.cons_prefix_cons] at begins
  exact begins.2.1

/-! ## The last occurrence -/

theorem splitLast?_eq_none_iff {separator : Text} (nonempty : separator ≠ []) (text : Text) :
    splitLast? separator text = none ↔ ¬ separator <:+: text := by
  induction text with
  | nil => simp [splitLast?, nonempty]
  | cons c rest inductionHypothesis =>
      rw [splitLast?, List.infix_cons_iff, not_or, ← inductionHypothesis]
      cases splitLast? separator rest with
      | some parts => simp
      | none =>
          simp only [Option.map_eq_none_iff, and_true]
          rw [← List.isPrefixOf_iff_prefix, ← List.isSome_isPrefixOf?_eq_isPrefixOf,
            Option.not_isSome_iff_eq_none]

/-- A text is cut at the occurrence of a separator behind whose beginning there is no other. -/
theorem splitLast?_eq_some_iff
    {separator : Text}
    (nonempty : separator ≠ [])
    (text front back : Text) :
    splitLast? separator text = some (front, back) ↔
      text = front ++ (separator ++ back) ∧ ¬ separator <:+: (separator ++ back).tail := by
  induction text generalizing front with
  | nil => simp [splitLast?, nonempty]
  | cons c rest inductionHypothesis =>
      have none_iff := splitLast?_eq_none_iff nonempty rest
      cases front with
      | nil =>
          -- The separator begins the text, so it occurs no more in the rest of it.
          rw [splitLast?, List.nil_append]
          constructor
          · intro cut
            cases found : splitLast? separator rest with
            | some parts => simp [found] at cut
            | none =>
                rw [found] at cut
                have begins : separator ++ back = c :: rest := by simpa using cut
                exact ⟨begins.symm, begins ▸ none_iff.mp found⟩
          · rintro ⟨begins, last⟩
            rw [← begins] at last
            rw [none_iff.mpr last]
            simp [begins]
      | cons d others =>
          rw [splitLast?, List.cons_append, List.cons.injEq, and_assoc, ← inductionHypothesis]
          cases found : splitLast? separator rest with
          | some parts => simp [Prod.ext_iff, and_assoc]
          | none => simp

end Text
end StyleTypings
