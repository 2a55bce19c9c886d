import Mathlib.Data.List.DropRight
import Mathlib.Data.List.TakeWhile
import StyleTypings.Proofs.Text.Joining
import StyleTypings.Text.Blank

/-!
# Trimmed texts and their parts

Trimming stops at the first and at the last character that is not blank, whatever stands between
them. A text that is cut at the first of some separators is cut at the place where none stands
before.
-/

namespace StyleTypings
namespace Text

/-! ## Trimming -/

theorem trimStart_cons {c : Char} (solid : isBlank c = false) (rest : Text) :
    trimStart (c :: rest) = c :: rest :=
  List.dropWhile_cons_of_neg (by simp [solid])

/-- Before the last character that is not blank nothing is trimmed from the end. -/
theorem trimEnd_append_cons {c : Char} (solid : isBlank c = false) (front back : Text) :
    trimEnd (front ++ c :: back) = front ++ c :: trimEnd back := by
  unfold trimEnd dropEndWhile
  rw [List.reverse_append, List.reverse_cons, List.append_assoc, List.dropWhile_append]
  split
  · next nothing =>
      rw [List.isEmpty_iff.mp nothing, List.singleton_append,
        List.dropWhile_cons_of_neg (by simp [solid])]
      simp
  · simp

theorem trim_cons_of_isBlank {c : Char} (blank : isBlank c = true) (rest : Text) :
    trim (c :: rest) = trim rest := by
  unfold trim trimStart
  rw [List.dropWhile_cons_of_pos blank]

/-- Blanks behind a text are trimmed if the text neither begins nor ends with one. -/
theorem trim_append
    {first last : Char}
    {inside after : Text}
    (solid : isBlank first = false)
    (solidLast : isBlank last = false)
    (areBlank : ∀ c ∈ after, isBlank c = true) :
    trim (first :: inside ++ last :: after) = first :: inside ++ [last] := by
  have nothing : trimEnd after = [] := List.rdropWhile_eq_nil_iff.mpr areBlank
  rw [trim, List.cons_append, trimStart_cons solid, ← List.cons_append,
    trimEnd_append_cons solidLast, nothing]

theorem trimEnd_prefix (text : Text) : trimEnd text <+: text :=
  List.rdropWhile_prefix isBlank text

/-- A text without blanks is its own first word. -/
theorem firstWord?_of_solid
    {text : Text}
    (nonempty : text ≠ [])
    (solid : ∀ c ∈ text, isBlank c = false) :
    firstWord? text = some text := by
  obtain ⟨c, rest, rfl⟩ := List.exists_cons_of_ne_nil nonempty
  rw [firstWord?, trimStart_cons (solid c List.mem_cons_self)]
  apply congrArg some
  rw [List.takeWhile_eq_self_iff]
  intro d among
  simp [solid d among]

theorem trimEnd_of_solid {text : Text} (solid : ∀ c ∈ text, isBlank c = false) :
    trimEnd text = text := by
  rcases List.eq_nil_or_concat text with rfl | ⟨front, c, rfl⟩
  · rfl
  · rw [List.concat_eq_append]
    exact trimEnd_append_cons (solid c (by simp)) front []

/-- Nothing is trimmed from a text without blanks. -/
theorem trim_of_solid {text : Text} (solid : ∀ c ∈ text, isBlank c = false) :
    trim text = text := by
  cases text with
  | nil => rfl
  | cons c rest => rw [trim, trimStart_cons (solid c List.mem_cons_self), trimEnd_of_solid solid]

/-! ## Cutting at a separator -/

/-- A text is cut at a separator if the text before it does not have the first character of the
separator. -/
theorem splitFirst?_append {c : Char} {front : Text} (fresh : c ∉ front) (more back : Text) :
    splitFirst? (c :: more) (front ++ (c :: more ++ back)) = some (front, back) := by
  induction front with
  | nil =>
      have begins : (c :: more).isPrefixOf? (c :: more ++ back) = some back :=
        List.isPrefixOf?_eq_some_iff_append_eq.mpr rfl
      rw [List.cons_append] at begins
      simp [splitFirst?, begins]
  | cons d rest inductionHypothesis =>
      obtain ⟨differs, later⟩ := List.ne_and_not_mem_of_not_mem_cons fresh
      have begins : (c :: more).isPrefixOf? (d :: (rest ++ (c :: more ++ back))) = none :=
        if_neg (by simpa using differs)
      rw [List.cons_append, splitFirst?, begins, inductionHypothesis later]
      rfl

/-- A text is cut at a character that does not stand in the text before it. -/
theorem splitFirst?_append_cons {separator : Char} {front : Text} (fresh : separator ∉ front)
    (back : Text) :
    splitFirst? [separator] (front ++ separator :: back) = some (front, back) :=
  splitFirst?_append fresh [] back

/-- A text without a separator is not cut. -/
theorem splitFirst?_of_notMem {separator : Char} {text : Text} (absent : separator ∉ text) :
    splitFirst? [separator] text = none :=
  Option.not_isSome_iff_eq_none.mp (mt (isSome_splitFirst?_iff separator text).mp absent)

end Text
end StyleTypings
