import StyleTypings.Text.Basic

/-!
# Texts of bounded size

There are finitely many texts of at most a given size. `upTo` lists them; it
only serves to count, in termination arguments, what is left to be seen.
-/

namespace StyleTypings
namespace Text

/-- Every character. -/
def everyChar : List Char :=
  (List.range 0x110000).map Char.ofNat

theorem mem_everyChar (c : Char) : c ∈ everyChar := by
  refine List.mem_map.2 ⟨c.toNat, List.mem_range.2 ?_, Char.ofNat_toNat c⟩
  have valid := c.valid
  simp only [UInt32.isValidChar, Nat.isValidChar] at valid
  change c.val.toNat < 0x110000
  omega

/-- Every text of at most a number of characters. -/
def upTo : Nat → List Text
  | 0 => [[]]
  | size + 1 =>
      [] :: everyChar.flatMap fun c => (upTo size).map (c :: ·)

theorem mem_upTo (size : Nat) (text : Text) (short : text.length ≤ size) :
    text ∈ upTo size := by
  induction size generalizing text with
  | zero =>
      cases text with
      | nil => simp [upTo]
      | cons c rest => simp at short
  | succ size inductionHypothesis =>
      cases text with
      | nil => simp [upTo]
      | cons c rest =>
          have shorter : rest.length ≤ size := by simpa using short
          exact List.mem_cons_of_mem _ <|
            List.mem_flatMap.2 ⟨c, mem_everyChar c,
              List.mem_map.2 ⟨rest, inductionHypothesis rest shorter, rfl⟩⟩

/-- A text has at most as many characters as bytes. -/
theorem length_le_byteSize (text : Text) : text.length ≤ text.byteSize := by
  induction text with
  | nil => simp
  | cons c rest inductionHypothesis =>
      have positive := Char.utf8Size_pos c
      simp only [List.length_cons, byteSize_cons]
      omega

end Text

/-- A smaller test that misses an item counts fewer of them. -/
theorem countP_lt_of_missed {α : Type}
    (smaller larger : α → Bool)
    (implies : ∀ item, smaller item = true → larger item = true)
    (items : List α)
    (missed : α)
    (present : missed ∈ items)
    (isLarger : larger missed = true)
    (notSmaller : smaller missed = false) :
    items.countP smaller < items.countP larger := by
  induction items with
  | nil => simp at present
  | cons item rest inductionHypothesis =>
      have le : rest.countP smaller ≤ rest.countP larger :=
        List.countP_mono_left fun item _ => implies item
      rcases List.mem_cons.1 present with equal | inRest
      · subst equal
        simp only [List.countP_cons, isLarger, notSmaller]
        simp
        omega
      · have less := inductionHypothesis inRest
        simp only [List.countP_cons]
        have step : (if smaller item = true then 1 else 0) ≤
            (if larger item = true then 1 else 0) := by
          by_cases holds : smaller item = true
          · simp [holds, implies item holds]
          · simp [holds]
        omega

end StyleTypings
