import StyleTypings.Text.Span

/-!
# Cutting texts at byte offsets

An offset is a boundary of a text when the text splits there into two texts.
Cutting succeeds exactly on boundaries and yields the two parts, so the bytes
between two boundaries are the text between the splits.
-/

namespace StyleTypings

/-- An element of two lists one after the other stands in the first or in the second. -/
theorem cases_of_append_eq_append_cons
    {α : Type}
    {earlier later before after : List α}
    {element : α}
    (split : earlier ++ later = before ++ element :: after) :
    (∃ middle, earlier = before ++ element :: middle ∧ after = middle ++ later) ∨
      ∃ middle, before = earlier ++ middle ∧ later = middle ++ element :: after := by
  rcases List.append_eq_append_iff.mp split with ⟨middle, rest, whole⟩ | ⟨middle, rest, whole⟩
  · exact .inr ⟨middle, rest, whole⟩
  · cases middle with
    | nil => exact .inr ⟨[], by simpa using rest.symm, whole.symm⟩
    | cons first others =>
        obtain ⟨rfl, behind⟩ := List.cons.inj whole
        exact .inl ⟨others, rest, behind⟩

/-- A list divided in two ways is divided within the first part of the one, or the first
part of the other reaches further. -/
theorem cases_of_append_eq_append
    {α : Type}
    {earlier later before after : List α}
    (split : earlier ++ later = before ++ after) :
    (∃ middle, earlier = before ++ middle ∧ after = middle ++ later) ∨
      ∃ first others, before = earlier ++ first :: others ∧
        later = first :: others ++ after := by
  rcases List.append_eq_append_iff.mp split with ⟨middle, longer, rest⟩ | within
  · cases middle with
    | nil => exact .inl ⟨[], by simpa using longer.symm, rest.symm⟩
    | cons first others => exact .inr ⟨first, others, longer, rest⟩
  · exact .inl within

namespace Text

/-- An offset at which a text splits into two texts. -/
def Boundary (text : Text) (offset : Nat) : Prop :=
  ∃ front back, text = front ++ back ∧ front.byteSize = offset

theorem byteSize_pos_of_ne_nil {text : Text} (nonempty : text ≠ []) :
    0 < text.byteSize := by
  cases text with
  | nil => exact absurd rfl nonempty
  | cons c rest =>
      have positive := Char.utf8Size_pos c
      simp only [byteSize_cons]
      omega

/-- A text of no bytes has no characters. -/
theorem byteSize_eq_zero {text : Text} : text.byteSize = 0 ↔ text = [] := by
  constructor
  · intro zero
    cases text with
    | nil => rfl
    | cons c rest =>
        have positive := byteSize_pos_of_ne_nil (List.cons_ne_nil c rest)
        omega
  · rintro rfl
    rfl

theorem utf16Units_pos (c : Char) : 0 < utf16Units c := by
  unfold utf16Units
  split <;> omega

/-- A character has at most as many UTF-16 units as bytes. -/
theorem utf16Units_le_utf8Size (c : Char) : utf16Units c ≤ c.utf8Size := by
  unfold utf16Units
  split
  · exact Char.utf8Size_pos c
  · rename_i large
    have notOne : c.utf8Size ≠ 1 := by
      intro one
      have small : c.toNat ≤ 0x7F :=
        UInt32.le_iff_toNat_le.mp (Char.utf8Size_eq_one_iff.mp one)
      omega
    have positive := Char.utf8Size_pos c
    omega

theorem utf16Size_le_byteSize (text : Text) :
    text.utf16Size ≤ text.byteSize := by
  induction text with
  | nil => simp
  | cons c rest inductionHypothesis =>
      have first := utf16Units_le_utf8Size c
      simp only [utf16Size_cons, byteSize_cons]
      omega

theorem utf16Size_pos_of_ne_nil {text : Text} (nonempty : text ≠ []) :
    0 < text.utf16Size := by
  cases text with
  | nil => exact absurd rfl nonempty
  | cons c rest =>
      have positive := utf16Units_pos c
      simp only [utf16Size_cons]
      omega

@[simp] theorem dropBytes?_zero (text : Text) : dropBytes? 0 text = some text := by
  cases text <;> rfl

@[simp] theorem takeBytes?_zero (text : Text) : takeBytes? 0 text = some [] := by
  cases text <;> rfl

theorem dropBytes?_cons (c : Char) (size : Nat) (rest : Text) :
    dropBytes? (c.utf8Size + size) (c :: rest) = dropBytes? size rest := by
  obtain ⟨less, width⟩ := Nat.exists_eq_succ_of_ne_zero
    (Nat.pos_iff_ne_zero.mp (Char.utf8Size_pos c))
  have total : c.utf8Size + size = less + size + 1 := by omega
  rw [total, dropBytes?, if_pos (by omega)]
  congr 1
  omega

theorem takeBytes?_cons (c : Char) (size : Nat) (rest : Text) :
    takeBytes? (c.utf8Size + size) (c :: rest) =
      (takeBytes? size rest).map (c :: ·) := by
  obtain ⟨less, width⟩ := Nat.exists_eq_succ_of_ne_zero
    (Nat.pos_iff_ne_zero.mp (Char.utf8Size_pos c))
  have total : c.utf8Size + size = less + size + 1 := by omega
  have shorter : less + size + 1 - c.utf8Size = size := by omega
  rw [total, takeBytes?, if_pos (by omega), shorter]

/-- Dropping the bytes of the front leaves the back. -/
@[simp] theorem dropBytes?_append (front back : Text) :
    dropBytes? front.byteSize (front ++ back) = some back := by
  induction front with
  | nil => simp
  | cons c rest inductionHypothesis =>
      rw [byteSize_cons, List.cons_append, dropBytes?_cons, inductionHypothesis]

/-- Taking the bytes of the front gives the front. -/
@[simp] theorem takeBytes?_append (front back : Text) :
    takeBytes? front.byteSize (front ++ back) = some front := by
  induction front with
  | nil => simp
  | cons c rest inductionHypothesis =>
      rw [byteSize_cons, List.cons_append, takeBytes?_cons, inductionHypothesis]
      rfl

/-- The bytes between two splits are the text between them. -/
theorem slice?_append (before inside after : Text) :
    slice? before.byteSize (before.byteSize + inside.byteSize)
      (before ++ (inside ++ after)) = some inside := by
  unfold slice?
  rw [if_pos (Nat.le_add_right _ _), dropBytes?_append, Option.bind_some,
    Nat.add_sub_cancel_left, takeBytes?_append]

/-- Two splits of one text are nested: the front that is no longer in bytes
begins the other. -/
theorem eq_append_of_byteSize_le
    {front back front' back' : Text}
    (same : front ++ back = front' ++ back')
    (shorter : front.byteSize ≤ front'.byteSize) :
    ∃ inside, front' = front ++ inside ∧ back = inside ++ back' := by
  rcases List.append_eq_append_iff.mp same with
    ⟨inside, longer, rest⟩ | ⟨inside, longer, rest⟩
  · exact ⟨inside, longer, rest⟩
  · have sizes := congrArg byteSize longer
    rw [byteSize_append] at sizes
    have none_left : inside = [] := byteSize_eq_zero.mp (by omega)
    subst none_left
    exact ⟨[], by simpa using longer.symm, by simpa using rest.symm⟩

/-- Splits of one text at the same offset are the same split. -/
theorem eq_of_byteSize_eq
    {front back front' back' : Text}
    (same : front ++ back = front' ++ back')
    (sizes : front.byteSize = front'.byteSize) :
    front = front' ∧ back = back' := by
  obtain ⟨inside, longer, rest⟩ := eq_append_of_byteSize_le same (by omega)
  have counted := congrArg byteSize longer
  rw [byteSize_append] at counted
  have none_left : inside = [] := byteSize_eq_zero.mp (by omega)
  subst none_left
  exact ⟨by simpa using longer.symm, by simpa using rest⟩

namespace Boundary

theorem zero (text : Text) : Boundary text 0 :=
  ⟨[], text, rfl, rfl⟩

theorem size (text : Text) : Boundary text text.byteSize :=
  ⟨text, [], (List.append_nil text).symm, rfl⟩

theorem append (front back : Text) : Boundary (front ++ back) front.byteSize :=
  ⟨front, back, rfl, rfl⟩

theorem le_byteSize
    {text : Text}
    {offset : Nat}
    (boundary : Boundary text offset) :
    offset ≤ text.byteSize := by
  obtain ⟨front, back, rfl, rfl⟩ := boundary
  rw [byteSize_append]
  omega

/-- Two boundaries in order cut a text into three. -/
theorem exists_split
    {text : Text}
    {start stop : Nat}
    (first : Boundary text start)
    (second : Boundary text stop)
    (ordered : start ≤ stop) :
    ∃ before inside after, text = before ++ (inside ++ after) ∧
      before.byteSize = start ∧ start + inside.byteSize = stop := by
  obtain ⟨before, rest, split, rfl⟩ := first
  obtain ⟨front, after, split', rfl⟩ := second
  obtain ⟨inside, rfl, rfl⟩ :=
    eq_append_of_byteSize_le (split.symm.trans split') ordered
  exact ⟨before, inside, after, split, rfl, by rw [byteSize_append]⟩

/-- The boundaries of a text with a further text in front. -/
theorem append_left
    {back : Text}
    {offset : Nat}
    (front : Text)
    (boundary : Boundary back offset) :
    Boundary (front ++ back) (front.byteSize + offset) := by
  obtain ⟨before, after, rfl, rfl⟩ := boundary
  exact ⟨front ++ before, after, by rw [List.append_assoc], byteSize_append _ _⟩

end Boundary

/-- Bytes can be dropped up to a boundary only. -/
theorem exists_of_dropBytes?_eq_some
    {offset : Nat}
    {text back : Text}
    (dropped : dropBytes? offset text = some back) :
    ∃ front, text = front ++ back ∧ front.byteSize = offset := by
  fun_induction dropBytes? offset text with
  | case1 text => exact ⟨[], Option.some.inj dropped, rfl⟩
  | case2 => exact absurd dropped nofun
  | case3 offset c rest fits inductionHypothesis =>
      obtain ⟨front, rfl, size⟩ := inductionHypothesis dropped
      refine ⟨c :: front, rfl, ?_⟩
      rw [byteSize_cons]
      omega
  | case4 => exact absurd dropped nofun

/-- Bytes can be taken up to a boundary only. -/
theorem exists_of_takeBytes?_eq_some
    {offset : Nat}
    {text front : Text}
    (taken : takeBytes? offset text = some front) :
    (∃ back, text = front ++ back) ∧ front.byteSize = offset := by
  fun_induction takeBytes? offset text generalizing front with
  | case1 text =>
      obtain rfl := Option.some.inj taken
      exact ⟨⟨text, rfl⟩, rfl⟩
  | case2 => exact absurd taken nofun
  | case3 offset c rest fits inductionHypothesis =>
      obtain ⟨inside, later, rfl⟩ := Option.map_eq_some_iff.mp taken
      obtain ⟨⟨back, rfl⟩, size⟩ := inductionHypothesis later
      refine ⟨⟨back, rfl⟩, ?_⟩
      rw [byteSize_cons]
      omega
  | case4 => exact absurd taken nofun

/-- A text is cut out up to a boundary only. -/
theorem Boundary.of_slice?_eq_some
    {start stop : Nat}
    {text inside : Text}
    (cut : slice? start stop text = some inside) :
    text.Boundary stop := by
  unfold slice? at cut
  split at cut
  · obtain ⟨rest, dropped, taken⟩ := Option.bind_eq_some_iff.mp cut
    obtain ⟨front, rfl, rfl⟩ := exists_of_dropBytes?_eq_some dropped
    obtain ⟨⟨back, rfl⟩, size⟩ := exists_of_takeBytes?_eq_some taken
    refine ⟨front ++ inside, back, (List.append_assoc _ _ _).symm, ?_⟩
    rw [byteSize_append]
    omega
  · exact absurd cut nofun

end Text

namespace Span

/-- A span between two splits covers the text between them. -/
theorem slice_append (before inside after : Text) :
    Span.slice ⟨before.byteSize, before.byteSize + inside.byteSize⟩
      (before ++ (inside ++ after)) = inside := by
  unfold Span.slice
  rw [Text.slice?_append]
  rfl

/-- A span from a split to the end covers the text behind the split. -/
theorem slice_back (front back : Text) :
    Span.slice ⟨front.byteSize, (front ++ back : Text).byteSize⟩ (front ++ back) = back := by
  have cut := Span.slice_append front back []
  rwa [List.append_nil, ← Text.byteSize_append] at cut

/-- A span between two boundaries in order covers as many bytes as lie between
them. -/
theorem byteSize_slice
    {text : Text}
    {span : Span}
    (first : text.Boundary span.start)
    (second : text.Boundary span.stop)
    (ordered : span.start ≤ span.stop) :
    (span.slice text).byteSize = span.stop - span.start := by
  obtain ⟨before, inside, after, rfl, started, stopped⟩ :=
    first.exists_split second ordered
  have covered := Span.slice_append before inside after
  rw [started, stopped] at covered
  rw [covered]
  omega

/-- A span that does not end behind its start covers nothing. -/
theorem slice_of_stop_le
    {span : Span}
    (backwards : span.stop ≤ span.start)
    (text : Text) :
    span.slice text = [] := by
  unfold Span.slice Text.slice?
  split
  · have nothing : span.stop - span.start = 0 := by omega
    rw [nothing]
    cases Text.dropBytes? span.start text with
    | none => rfl
    | some rest => rw [Option.bind_some, Text.takeBytes?_zero]; rfl
  · rfl

end Span
end StyleTypings
