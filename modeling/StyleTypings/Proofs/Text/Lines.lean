import Mathlib.Data.List.TakeWhile
import StyleTypings.Proofs.Text.Cutting
import StyleTypings.Text.LineIndex

/-!
# Lines and columns of a boundary

The place just past a text is told by the text alone: its line is the number of
line feeds and its column the UTF-16 size of what follows the last of them. A
line index answers with this place on every boundary, and different boundaries
of a text below `2 ^ 32` bytes have different places.
-/

namespace StyleTypings
namespace Text

/-- What follows the last line feed of a text. -/
def lastLine : Text → Text
  | [] => []
  | c :: rest => if '\n' ∈ c :: rest then lastLine rest else c :: rest

theorem lastLine_of_notMem
    {text : Text}
    (oneLine : '\n' ∉ text) :
    lastLine text = text := by
  cases text with
  | nil => rfl
  | cons c rest => rw [lastLine, if_neg oneLine]

theorem lastLine_cons_of_mem
    (c : Char)
    {rest : Text}
    (broken : '\n' ∈ rest) :
    lastLine (c :: rest) = lastLine rest := by
  rw [lastLine, if_pos (List.mem_cons_of_mem c broken)]

@[simp] theorem lastLine_cons_lineFeed (rest : Text) :
    lastLine ('\n' :: rest) = lastLine rest := by
  rw [lastLine, if_pos List.mem_cons_self]

theorem lastLine_append_of_mem
    (front : Text)
    {back : Text}
    (broken : '\n' ∈ back) :
    lastLine (front ++ back) = lastLine back := by
  induction front with
  | nil => rfl
  | cons c rest inductionHypothesis =>
      rw [List.cons_append,
        lastLine_cons_of_mem c (List.mem_append_right rest broken),
        inductionHypothesis]

theorem lastLine_append_of_notMem
    (front : Text)
    {back : Text}
    (oneLine : '\n' ∉ back) :
    lastLine (front ++ back) = lastLine front ++ back := by
  induction front with
  | nil => simp [lastLine, lastLine_of_notMem oneLine]
  | cons c rest inductionHypothesis =>
      by_cases broken : '\n' ∈ c :: rest
      · have longer : '\n' ∈ c :: (rest ++ back) :=
          List.mem_append_left back broken
        rw [List.cons_append, lastLine, if_pos longer, inductionHypothesis,
          lastLine, if_pos broken]
      · have whole : '\n' ∉ c :: rest ++ back := by
          intro present
          rcases List.mem_append.mp present with inFront | inBack
          · exact broken inFront
          · exact oneLine inBack
        rw [lastLine_of_notMem whole, lastLine_of_notMem broken]

/-- The last line stands at the end of its text. -/
theorem exists_eq_append_lastLine (text : Text) :
    ∃ head, text = head ++ lastLine text := by
  induction text with
  | nil => exact ⟨[], rfl⟩
  | cons c rest inductionHypothesis =>
      by_cases broken : '\n' ∈ c :: rest
      · obtain ⟨head, split⟩ := inductionHypothesis
        refine ⟨c :: head, ?_⟩
        rw [lastLine, if_pos broken, List.cons_append, ← split]
      · exact ⟨[], (lastLine_of_notMem broken).symm⟩

theorem byteSize_lastLine_le (text : Text) :
    (lastLine text).byteSize ≤ text.byteSize := by
  obtain ⟨head, split⟩ := exists_eq_append_lastLine text
  have sizes := congrArg byteSize split
  rw [byteSize_append] at sizes
  omega

theorem count_le_byteSize (c : Char) (text : Text) :
    text.count c ≤ text.byteSize := by
  induction text with
  | nil => simp
  | cons first rest inductionHypothesis =>
      have positive := Char.utf8Size_pos first
      rw [List.count_cons, byteSize_cons]
      split <;> omega

/-- The place just past a text. -/
def placeAfter (front : Text) : LineColumn :=
  { line := (front.count '\n').toUInt32
    column := (utf16Size (lastLine front)).toUInt32 }

/-- The place of an offset: the line feeds before it, and the UTF-16 units since
the last of them. -/
def IsPlace (text : Text) (offset : Nat) (place : LineColumn) : Prop :=
  ∃ front back, text = front ++ back ∧ front.byteSize = offset ∧
    place = placeAfter front

theorem Boundary.exists_place
    {text : Text}
    {offset : Nat}
    (boundary : text.Boundary offset) :
    ∃ place, text.IsPlace offset place := by
  obtain ⟨front, back, split, size⟩ := boundary
  exact ⟨_, front, back, split, size, rfl⟩

/-- An offset has one place. -/
theorem IsPlace.unique
    {text : Text}
    {offset : Nat}
    {left right : LineColumn}
    (one : text.IsPlace offset left)
    (other : text.IsPlace offset right) :
    left = right := by
  obtain ⟨front, back, split, size, rfl⟩ := one
  obtain ⟨front', back', split', size', rfl⟩ := other
  rw [(eq_of_byteSize_eq (split.symm.trans split') (size.trans size'.symm)).1]

theorem toNat_line_placeAfter
    {front : Text}
    (small : front.byteSize < UInt32.size) :
    (placeAfter front).line.toNat = front.count '\n' := by
  have bound := count_le_byteSize '\n' front
  exact UInt32.toNat_ofNat_of_lt' (Nat.lt_of_le_of_lt bound small)

theorem toNat_column_placeAfter
    {front : Text}
    (small : front.byteSize < UInt32.size) :
    (placeAfter front).column.toNat = utf16Size (lastLine front) := by
  have units := utf16Size_le_byteSize (lastLine front)
  have bytes := byteSize_lastLine_le front
  exact UInt32.toNat_ofNat_of_lt' (by omega)

/-- A longer front ends on a later line or further to the right. -/
theorem count_ne_or_utf16Size_ne
    (front : Text)
    {inside : Text}
    (nonempty : inside ≠ []) :
    (front ++ inside).count '\n' ≠ front.count '\n' ∨
      utf16Size (lastLine (front ++ inside)) ≠ utf16Size (lastLine front) := by
  by_cases broken : '\n' ∈ inside
  · left
    have more := List.count_pos_iff.mpr broken
    rw [List.count_append]
    omega
  · right
    have wider := utf16Size_pos_of_ne_nil nonempty
    rw [lastLine_append_of_notMem front broken, utf16Size_append]
    omega

/-- Boundaries of a text below `2 ^ 32` bytes with the same place are equal. -/
theorem eq_of_placeAfter_eq
    {front back front' back' : Text}
    (same : front ++ back = front' ++ back')
    (small : (front ++ back).byteSize < UInt32.size)
    (places : placeAfter front = placeAfter front') :
    front = front' := by
  have small' : (front' ++ back').byteSize < UInt32.size := same ▸ small
  rw [byteSize_append] at small small'
  have lines : front.count '\n' = front'.count '\n' := by
    rw [← toNat_line_placeAfter (by omega), places, toNat_line_placeAfter (by omega)]
  have columns : utf16Size (lastLine front) = utf16Size (lastLine front') := by
    rw [← toNat_column_placeAfter (by omega), places,
      toNat_column_placeAfter (by omega)]
  rcases Nat.le_total front.byteSize front'.byteSize with shorter | longer
  · obtain ⟨inside, rfl, -⟩ := eq_append_of_byteSize_le same shorter
    by_cases nonempty : inside = []
    · rw [nonempty, List.append_nil]
    · rcases count_ne_or_utf16Size_ne front nonempty with differ | differ
      · exact absurd lines.symm differ
      · exact absurd columns.symm differ
  · obtain ⟨inside, rfl, -⟩ := eq_append_of_byteSize_le same.symm longer
    by_cases nonempty : inside = []
    · rw [nonempty, List.append_nil]
    · rcases count_ne_or_utf16Size_ne front' nonempty with differ | differ
      · exact absurd lines differ
      · exact absurd columns differ

/-- In a text shorter than `2 ^ 32` bytes a place has one offset. -/
theorem IsPlace.injective
    {text : Text}
    {offset offset' : Nat}
    {place : LineColumn}
    (small : text.byteSize < UInt32.size)
    (one : text.IsPlace offset place)
    (other : text.IsPlace offset' place) :
    offset = offset' := by
  obtain ⟨front, back, rfl, rfl, rfl⟩ := one
  obtain ⟨front', back', split, rfl, places⟩ := other
  rw [eq_of_placeAfter_eq split small places]

/-- Up to an offset of 32 bits neither the line nor the column is the largest
word. -/
theorem IsPlace.lt_size
    {text : Text}
    {offset : Nat}
    {place : LineColumn}
    (early : offset + 1 < UInt32.size)
    (isPlace : text.IsPlace offset place) :
    place.line.toNat + 1 < UInt32.size ∧ place.column.toNat + 1 < UInt32.size := by
  obtain ⟨front, back, rfl, rfl, rfl⟩ := isPlace
  have lines := count_le_byteSize '\n' front
  have units := utf16Size_le_byteSize (lastLine front)
  have bytes := byteSize_lastLine_le front
  rw [toNat_line_placeAfter (by omega), toNat_column_placeAfter (by omega)]
  omega

end Text

namespace LineIndex

theorem startsAfter_append (offset : Nat) (front back : Text) :
    startsAfter offset (front ++ back) =
      startsAfter offset front ++ startsAfter (offset + front.byteSize) back := by
  induction front generalizing offset with
  | nil => simp [startsAfter]
  | cons c rest inductionHypothesis =>
      simp only [List.cons_append, startsAfter, inductionHypothesis,
        Text.byteSize_cons, Nat.add_assoc]
      split <;> rfl

/-- Every line but the first starts past the beginning of a text and at most at
its end. -/
theorem mem_startsAfter
    {offset start : Nat}
    {text : Text}
    (present : start ∈ startsAfter offset text) :
    offset < start ∧ start ≤ offset + text.byteSize := by
  induction text generalizing offset with
  | nil => simp [startsAfter] at present
  | cons c rest inductionHypothesis =>
      have positive := Char.utf8Size_pos c
      have later (inRest : start ∈ startsAfter (offset + c.utf8Size) rest) :
          offset < start ∧ start ≤ offset + Text.byteSize (c :: rest) := by
        have bounds := inductionHypothesis inRest
        rw [Text.byteSize_cons]
        omega
      rw [startsAfter] at present
      split at present
      · rcases List.mem_cons.mp present with rfl | inRest
        · rw [Text.byteSize_cons]
          omega
        · exact later inRest
      · exact later present

theorem length_startsAfter (offset : Nat) (text : Text) :
    (startsAfter offset text).length = text.count '\n' := by
  induction text generalizing offset with
  | nil => rfl
  | cons c rest inductionHypothesis =>
      simp only [startsAfter]
      by_cases lineFeed : c = '\n'
      · rw [if_pos lineFeed, List.length_cons, inductionHypothesis, lineFeed,
          List.count_cons_self]
      · rw [if_neg lineFeed, inductionHypothesis,
          List.count_cons_of_ne lineFeed]

/-- No line starts behind a text without a line feed. -/
theorem startsAfter_of_notMem
    {text : Text}
    (oneLine : '\n' ∉ text)
    (offset : Nat) :
    startsAfter offset text = [] := by
  apply List.eq_nil_of_length_eq_zero
  rw [length_startsAfter]
  exact List.count_eq_zero.mpr oneLine

/-- Lines start just past the line feeds. -/
theorem mem_startsAfter_iff
    {offset start : Nat}
    {text : Text} :
    start ∈ startsAfter offset text ↔
      ∃ front back : Text, text = front ++ '\n' :: back ∧
        start = offset + front.byteSize + 1 := by
  have width : ('\n' : Char).utf8Size = 1 := rfl
  constructor
  · intro present
    induction text generalizing offset with
    | nil => exact absurd present List.not_mem_nil
    | cons c rest inductionHypothesis =>
        have later (inRest : start ∈ startsAfter (offset + c.utf8Size) rest) :
            ∃ front back : Text, c :: rest = front ++ '\n' :: back ∧
              start = offset + front.byteSize + 1 := by
          obtain ⟨front, back, rfl, rfl⟩ := inductionHypothesis inRest
          refine ⟨c :: front, back, rfl, ?_⟩
          rw [Text.byteSize_cons]
          omega
        rw [startsAfter] at present
        split at present
        · next lineFeed =>
            rcases List.mem_cons.mp present with rfl | inRest
            · exact ⟨[], rest, by rw [lineFeed]; rfl, by rw [lineFeed, width]; rfl⟩
            · exact later inRest
        · exact later present
  · rintro ⟨front, back, rfl, rfl⟩
    rw [startsAfter_append, startsAfter, if_pos rfl, width]
    exact List.mem_append_right _ List.mem_cons_self

/-- The last line starts where all of it is still to come. -/
theorem getLastD_startsAfter (offset : Nat) (text : Text) :
    (startsAfter offset text).getLastD offset + (Text.lastLine text).byteSize =
      offset + text.byteSize := by
  induction text generalizing offset with
  | nil => simp [startsAfter, Text.lastLine]
  | cons c rest inductionHypothesis =>
      have later := inductionHypothesis (offset + c.utf8Size)
      rw [Text.byteSize_cons]
      simp only [startsAfter]
      by_cases lineFeed : c = '\n'
      · subst lineFeed
        rw [if_pos rfl, List.getLastD_cons, Text.lastLine_cons_lineFeed]
        omega
      · rw [if_neg lineFeed]
        by_cases broken : '\n' ∈ rest
        · rw [Text.lastLine_cons_of_mem c broken]
          have positive : 0 < (startsAfter (offset + c.utf8Size) rest).length := by
            rw [length_startsAfter]
            exact List.count_pos_iff.mpr broken
          obtain ⟨first, others, shape⟩ := List.exists_cons_of_length_pos positive
          rw [shape, List.getLastD_cons] at later ⊢
          omega
        · have noStart := startsAfter_of_notMem broken (offset + c.utf8Size)
          have oneLine : '\n' ∉ c :: rest := by
            intro present
            rcases List.mem_cons.mp present with first | inRest
            · exact lineFeed first.symm
            · exact broken inRest
          rw [noStart, Text.lastLine_of_notMem oneLine, Text.byteSize_cons]
          simp

/-- The lines that begin at or before a boundary are those of the text before
it. -/
theorem startsUpTo_append (front back : Text) :
    (ofText (front ++ back)).startsUpTo front.byteSize =
      0 :: startsAfter 0 front := by
  have atFront : ∀ start ∈ 0 :: startsAfter 0 front,
      (decide (start ≤ front.byteSize)) = true := by
    intro start present
    rcases List.mem_cons.mp present with rfl | later
    · simp
    · have bounds := mem_startsAfter later
      simp only [decide_eq_true_eq]
      omega
  have atBack : ∀ start ∈ startsAfter (0 + front.byteSize) back,
      ¬ (decide (start ≤ front.byteSize)) = true := by
    intro start present
    have bounds := mem_startsAfter present
    simp only [decide_eq_true_eq]
    omega
  unfold startsUpTo ofText
  rw [startsAfter_append, ← List.cons_append,
    List.takeWhile_append_of_pos atFront]
  rw [List.takeWhile_eq_nil_iff.mpr, List.append_nil]
  intro nonempty
  exact atBack _ (List.get_mem _ _)

/-- The line of a boundary starts where the last line before it starts. -/
theorem lineStart_append (front back : Text) :
    (ofText (front ++ back)).lineStart front.byteSize +
        (Text.lastLine front).byteSize = front.byteSize := by
  have started := getLastD_startsAfter 0 front
  unfold lineStart
  rw [startsUpTo_append, List.getLastD_cons]
  omega

/-- On a boundary the line index answers with the place just past the text
before it. -/
theorem lineColumnUtf16?_append (front back : Text) :
    (ofText (front ++ back)).lineColumnUtf16? (front ++ back) front.byteSize =
      some (Text.placeAfter front) := by
  have inside : front.byteSize ≤ (ofText (front ++ back)).size := by
    simp [ofText]
  have started := lineStart_append front back
  obtain ⟨head, split⟩ := Text.exists_eq_append_lastLine front
  have headSize : head.byteSize = (ofText (front ++ back)).lineStart front.byteSize := by
    have sizes := congrArg Text.byteSize split
    rw [Text.byteSize_append] at sizes
    omega
  have sliced :
      Text.slice? ((ofText (front ++ back)).lineStart front.byteSize)
        front.byteSize (front ++ back) = some (Text.lastLine front) := by
    have cut := Text.slice?_append head (Text.lastLine front) back
    rw [← List.append_assoc, ← split, headSize, started] at cut
    exact cut
  have lines : ((ofText (front ++ back)).startsUpTo front.byteSize).length - 1 =
      front.count '\n' := by
    rw [startsUpTo_append, List.length_cons, length_startsAfter,
      Nat.add_sub_cancel]
  unfold lineColumnUtf16? lineColumn?
  rw [if_pos inside, Option.bind_eq_bind, Option.bind_some, sliced, lines]
  rfl

/-- The line index answers with the place of an offset. -/
theorem lineColumnUtf16?_of_isPlace
    {text : Text}
    {offset : Nat}
    {place : LineColumn}
    (isPlace : text.IsPlace offset place) :
    (ofText text).lineColumnUtf16? text offset = some place := by
  obtain ⟨front, back, rfl, rfl, rfl⟩ := isPlace
  exact lineColumnUtf16?_append front back

/-- Only boundaries have a UTF-16 column. -/
theorem isPlace_of_lineColumnUtf16?
    {text : Text}
    {offset : Nat}
    {place : LineColumn}
    (found : (ofText text).lineColumnUtf16? text offset = some place) :
    text.IsPlace offset place := by
  have boundary : text.Boundary offset := by
    unfold lineColumnUtf16? at found
    obtain ⟨_, -, rest⟩ := Option.bind_eq_some_iff.mp found
    obtain ⟨_, cut, -⟩ := Option.bind_eq_some_iff.mp rest
    exact .of_slice?_eq_some cut
  obtain ⟨other, isPlace⟩ := boundary.exists_place
  have same := (lineColumnUtf16?_of_isPlace isPlace).symm.trans found
  exact Option.some.inj same ▸ isPlace

end LineIndex
end StyleTypings
