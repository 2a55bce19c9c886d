import Mathlib.Data.List.DropRight
import StyleTypings.Proofs.Text.Bytes
import StyleTypings.Proofs.Text.Lines

/-!
# Offsets and positions

The line of an offset is the number of line feeds among the bytes before it, and its column the
number of bytes behind the last of them. A line index answers with these for every offset of
its text and leads back from them to the offset. On the boundaries of characters it counts the
column in UTF-16 units as well, which keeps the order of the offsets.
-/

namespace StyleTypings

/-- The byte of a line feed. -/
def lineFeedByte : UInt8 :=
  10

namespace Text

/-- Number of line feeds before an offset. -/
def lineFeedsBefore (text : Text) (offset : Nat) : Nat :=
  (text.bytes.take offset).count lineFeedByte

/-- Number of bytes before an offset that stand behind the last line feed before it. -/
def bytesBefore (text : Text) (offset : Nat) : Nat :=
  ((text.bytes.take offset).rtakeWhile (· != lineFeedByte)).length

theorem lineFeedByte_mem_iff (c : Char) :
    lineFeedByte ∈ String.utf8EncodeChar c ↔ c = '\n' := by
  constructor
  · intro among
    exact Char.toNat_inj.mp (utf8EncodeChar_of_mem (by decide) among).2
  · rintro rfl
    decide

theorem count_utf8EncodeChar_of_ne {c : Char} (other : c ≠ '\n') :
    (String.utf8EncodeChar c).count lineFeedByte = 0 :=
  List.count_eq_zero.mpr fun among => other ((lineFeedByte_mem_iff c).mp among)

/-- A text has as many line feeds among its characters as among its bytes. -/
theorem count_bytes (text : Text) : text.bytes.count lineFeedByte = text.count '\n' := by
  induction text with
  | nil => rfl
  | cons c rest inductionHypothesis =>
      rw [bytes_cons, List.count_append, inductionHypothesis]
      by_cases lineFeed : c = '\n'
      · subst lineFeed
        rw [List.count_cons_self, Nat.add_comm]
        rfl
      · rw [count_utf8EncodeChar_of_ne lineFeed, List.count_cons_of_ne lineFeed, Nat.zero_add]

theorem lineFeedByte_notMem {text : Text} (oneLine : '\n' ∉ text) :
    lineFeedByte ∉ text.bytes := by
  rw [← List.count_eq_zero, count_bytes, List.count_eq_zero]
  exact oneLine

theorem lineFeedsBefore_le (text : Text) (offset : Nat) :
    text.lineFeedsBefore offset ≤ offset :=
  List.count_le_length.trans (List.length_take_le offset text.bytes)

theorem bytesBefore_le (text : Text) (offset : Nat) : text.bytesBefore offset ≤ offset :=
  (List.rtakeWhile_suffix _ _).length_le.trans (List.length_take_le offset text.bytes)

end Text

/-! ## Line starts, byte by byte -/

namespace LineIndex

/-- Offsets just past each line feed of some bytes that begin at `offset`. -/
def startsIn (offset : Nat) : Bytes → List Nat
  | [] => []
  | byte :: rest =>
      if byte = lineFeedByte then
        (offset + 1) :: startsIn (offset + 1) rest
      else
        startsIn (offset + 1) rest

theorem startsIn_append (offset : Nat) (front back : Bytes) :
    startsIn offset (front ++ back) =
      startsIn offset front ++ startsIn (offset + front.length) back := by
  induction front generalizing offset with
  | nil => rfl
  | cons byte rest inductionHypothesis =>
      have further : offset + 1 + rest.length = offset + (rest.length + 1) := by omega
      simp only [List.cons_append, startsIn, inductionHypothesis, List.length_cons, further]
      split <;> rfl

theorem startsIn_of_notMem
    {bytes : Bytes}
    (oneLine : lineFeedByte ∉ bytes)
    (offset : Nat) :
    startsIn offset bytes = [] := by
  induction bytes generalizing offset with
  | nil => rfl
  | cons byte rest inductionHypothesis =>
      have other : byte ≠ lineFeedByte := fun same => oneLine (same ▸ List.mem_cons_self)
      rw [startsIn, if_neg other,
        inductionHypothesis fun among => oneLine (List.mem_cons_of_mem byte among)]

theorem mem_startsIn
    {offset start : Nat}
    {bytes : Bytes}
    (present : start ∈ startsIn offset bytes) :
    offset < start ∧ start ≤ offset + bytes.length := by
  induction bytes generalizing offset with
  | nil => exact absurd present List.not_mem_nil
  | cons byte rest inductionHypothesis =>
      have later (inRest : start ∈ startsIn (offset + 1) rest) :
          offset < start ∧ start ≤ offset + (byte :: rest).length := by
        have bounds := inductionHypothesis inRest
        rw [List.length_cons]
        omega
      rw [startsIn] at present
      split at present
      · rcases List.mem_cons.mp present with rfl | inRest
        · rw [List.length_cons]
          omega
        · exact later inRest
      · exact later present

theorem length_startsIn (offset : Nat) (bytes : Bytes) :
    (startsIn offset bytes).length = bytes.count lineFeedByte := by
  induction bytes generalizing offset with
  | nil => rfl
  | cons byte rest inductionHypothesis =>
      rw [startsIn]
      split
      · next lineFeed =>
          rw [List.length_cons, inductionHypothesis, lineFeed, List.count_cons_self]
      · next other => rw [inductionHypothesis, List.count_cons_of_ne other]

/-- The lines of a text start where the lines of its bytes do. -/
theorem startsAfter_eq_startsIn (offset : Nat) (text : Text) :
    startsAfter offset text = startsIn offset text.bytes := by
  induction text generalizing offset with
  | nil => rfl
  | cons c rest inductionHypothesis =>
      rw [Text.bytes_cons, startsIn_append, String.length_utf8EncodeChar, startsAfter,
        inductionHypothesis]
      by_cases lineFeed : c = '\n'
      · subst lineFeed
        rfl
      · have none : lineFeedByte ∉ String.utf8EncodeChar c := fun among =>
          lineFeed ((Text.lineFeedByte_mem_iff c).mp among)
        rw [if_neg lineFeed, startsIn_of_notMem none, List.nil_append]

/-- The last line starts where the bytes behind the last line feed begin. -/
theorem getLastD_startsIn (bytes : Bytes) :
    (startsIn 0 bytes).getLastD 0 + (bytes.rtakeWhile (· != lineFeedByte)).length =
      bytes.length := by
  induction bytes using List.reverseRecOn with
  | nil => rfl
  | append_singleton front byte inductionHypothesis =>
      rw [startsIn_append, List.rtakeWhile_concat, List.length_append]
      by_cases lineFeed : byte = lineFeedByte
      · simp [startsIn, lineFeed, List.getLastD_eq_getLast?]
      · have kept : (byte != lineFeedByte) = true := bne_iff_ne.mpr lineFeed
        rw [startsIn, if_neg lineFeed, startsIn, List.append_nil, if_pos kept,
          List.length_append, ← Nat.add_assoc, inductionHypothesis]

/-- The lines that start up to an offset are those of the bytes before it. -/
theorem startsUpTo_eq
    {text : Text}
    {offset : Nat}
    (within : offset ≤ text.byteSize) :
    (ofText text).startsUpTo offset = 0 :: startsIn 0 (text.bytes.take offset) := by
  have size : (text.bytes.take offset).length = offset := by
    rw [List.length_take, Text.length_bytes]
    omega
  have whole : startsAfter 0 text =
      startsIn 0 (text.bytes.take offset) ++ startsIn offset (text.bytes.drop offset) := by
    have cut := startsIn_append 0 (text.bytes.take offset) (text.bytes.drop offset)
    rwa [List.take_append_drop, size, Nat.zero_add, ← startsAfter_eq_startsIn] at cut
  have before (start : Nat) (present : start ∈ 0 :: startsIn 0 (text.bytes.take offset)) :
      decide (start ≤ offset) = true := by
    rcases List.mem_cons.mp present with rfl | later
    · simp
    · have bounds := mem_startsIn later
      simp only [decide_eq_true_eq]
      omega
  have behind : (startsIn offset (text.bytes.drop offset)).takeWhile (· ≤ offset) = [] := by
    refine List.takeWhile_eq_nil_iff.mpr fun nonempty => ?_
    have bounds := mem_startsIn (List.get_mem _ ⟨0, nonempty⟩)
    simp only [decide_eq_true_eq]
    exact Nat.not_le.mpr bounds.1
  unfold startsUpTo ofText
  rw [whole, ← List.cons_append, List.takeWhile_append_of_pos before, behind, List.append_nil]

/-! ## From an offset to its position -/

theorem lineStart_add_bytesBefore
    {text : Text}
    {offset : Nat}
    (within : offset ≤ text.byteSize) :
    (ofText text).lineStart offset + text.bytesBefore offset = offset := by
  have started := getLastD_startsIn (text.bytes.take offset)
  rw [List.length_take, Text.length_bytes, Nat.min_eq_left within] at started
  unfold lineStart
  rwa [startsUpTo_eq within, List.getLastD_cons]

/-- A line index counts the line feeds before an offset and the bytes behind the last of
them. -/
theorem lineColumn?_eq
    {text : Text}
    {offset : Nat}
    (within : offset ≤ text.byteSize) :
    (ofText text).lineColumn? offset =
      some ⟨(text.lineFeedsBefore offset).toUInt32, (text.bytesBefore offset).toUInt32⟩ := by
  have column : offset - (ofText text).lineStart offset = text.bytesBefore offset := by
    have whole := lineStart_add_bytesBefore within
    omega
  unfold lineColumn?
  rw [if_pos (show offset ≤ (ofText text).size from within), column, startsUpTo_eq within,
    List.length_cons, length_startsIn, Nat.add_sub_cancel]
  rfl

theorem lineColumn?_eq_none_iff (text : Text) (offset : Nat) :
    (ofText text).lineColumn? offset = none ↔ text.byteSize < offset := by
  by_cases within : offset ≤ text.byteSize
  · rw [lineColumn?_eq within]
    exact ⟨nofun, fun past => absurd past (Nat.not_lt.mpr within)⟩
  · have past : ¬ offset ≤ (ofText text).size := within
    unfold lineColumn?
    rw [if_neg past]
    exact ⟨fun _ => Nat.lt_of_not_le within, fun _ => rfl⟩

theorem le_byteSize_of_lineColumn?
    {text : Text}
    {offset : Nat}
    {position : LineColumn}
    (located : (ofText text).lineColumn? offset = some position) :
    offset ≤ text.byteSize := by
  refine Nat.le_of_not_lt fun past => ?_
  rw [(lineColumn?_eq_none_iff text offset).mpr past] at located
  exact absurd located nofun

/-- The line of an offset starts in the table where the bytes before the offset say. -/
theorem getElem?_starts_lineFeedsBefore
    {text : Text}
    {offset : Nat}
    (within : offset ≤ text.byteSize) :
    (ofText text).starts[text.lineFeedsBefore offset]? =
      some (offset - text.bytesBefore offset) := by
  have begins : (ofText text).startsUpTo offset <+: (ofText text).starts :=
    List.takeWhile_prefix _
  have last : ((ofText text).startsUpTo offset)[text.lineFeedsBefore offset]? =
      some ((ofText text).lineStart offset) := by
    have index : text.lineFeedsBefore offset =
        (0 :: startsIn 0 (text.bytes.take offset)).length - 1 := by
      rw [List.length_cons, length_startsIn]
      rfl
    unfold lineStart
    rw [startsUpTo_eq within, index, ← List.getLast?_eq_getElem?, List.getLast?_cons,
      List.getLastD_cons, List.getLastD_eq_getLast?]
  have start : (ofText text).lineStart offset = offset - text.bytesBefore offset := by
    have whole := lineStart_add_bytesBefore within
    omega
  obtain ⟨later, whole⟩ := begins
  rw [← whole, List.getElem?_append_left (List.getElem?_eq_some_iff.mp last).1, last, start]

/-! ## From a position to an offset -/

/-- A line index leads to the start of the line plus the column, if that is no further than the
end. Past the last word there is no such sum. -/
theorem offset?_eq
    {text : Text}
    {position : LineColumn}
    {start : Nat}
    (starts : (ofText text).starts[position.line.toNat]? = some start) :
    (ofText text).offset? position =
      if start + position.column.toNat < UInt32.size then
        .ok (if start + position.column.toNat ≤ text.byteSize then
          some (start + position.column.toNat) else none)
      else
        .error ⟨start, position.column.toNat⟩ := by
  unfold offset? wordSum
  simp only [starts]
  split <;> rfl

/-- The words of a position are the numbers that they stand for. -/
theorem toNat_lineColumn?
    {text : Text}
    {offset : Nat}
    {position : LineColumn}
    (small : offset < UInt32.size)
    (located : (ofText text).lineColumn? offset = some position) :
    position.line.toNat = text.lineFeedsBefore offset ∧
      position.column.toNat = text.bytesBefore offset := by
  rw [lineColumn?_eq (le_byteSize_of_lineColumn? located)] at located
  obtain rfl := Option.some.inj located
  have lines := Text.lineFeedsBefore_le text offset
  have columns := Text.bytesBefore_le text offset
  exact ⟨UInt32.toNat_ofNat_of_lt' (by omega), UInt32.toNat_ofNat_of_lt' (by omega)⟩

/-- The position of an offset leads back to the offset. -/
theorem offset?_of_lineColumn?
    {text : Text}
    {offset : Nat}
    {position : LineColumn}
    (small : offset < UInt32.size)
    (located : (ofText text).lineColumn? offset = some position) :
    (ofText text).offset? position = .ok (some offset) := by
  obtain ⟨line, column⟩ := toNat_lineColumn? small located
  have within := le_byteSize_of_lineColumn? located
  have bound := Text.bytesBefore_le text offset
  have starts := getElem?_starts_lineFeedsBefore within
  rw [← line] at starts
  rw [offset?_eq starts, column, Nat.sub_add_cancel bound, if_pos small, if_pos within]

end LineIndex

/-! ## Boundaries of characters -/

namespace Text

/-- A text that is empty or ends with a line feed, behind which a line starts. -/
def EndsLine (text : Text) : Prop :=
  text = [] ∨ text.getLast? = some '\n'

instance (text : Text) : Decidable text.EndsLine :=
  inferInstanceAs (Decidable (_ ∨ _))

theorem EndsLine.cons
    {rest : Text}
    (ends : EndsLine rest)
    {c : Char}
    (lineFeed : rest = [] → c = '\n') :
    EndsLine (c :: rest) := by
  rcases ends with rfl | last
  · exact .inr (congrArg some (lineFeed rfl))
  · refine .inr ?_
    rw [List.getLast?_cons, last]
    rfl

/-- A text is made of whole lines and the line that is left open. -/
theorem exists_endsLine_append (text : Text) :
    ∃ front, text = front ++ lastLine text ∧ EndsLine front ∧ '\n' ∉ lastLine text := by
  induction text with
  | nil => exact ⟨[], rfl, .inl rfl, List.not_mem_nil⟩
  | cons c rest inductionHypothesis =>
      by_cases broken : '\n' ∈ c :: rest
      · obtain ⟨front, whole, ends, oneLine⟩ := inductionHypothesis
        rw [lastLine, if_pos broken]
        refine ⟨c :: front, congrArg (c :: ·) whole, ends.cons fun nothing => ?_, oneLine⟩
        rw [nothing, List.nil_append] at whole
        rcases List.mem_cons.mp broken with lineFeed | later
        · exact lineFeed.symm
        · exact absurd (whole ▸ later) oneLine
      · rw [lastLine_of_notMem broken]
        exact ⟨[], rfl, .inl rfl, broken⟩

theorem take_bytes_append (front back : Text) :
    (front ++ back : Text).bytes.take front.byteSize = front.bytes := by
  rw [bytes_append, ← length_bytes front, List.take_left]

theorem lineFeedsBefore_append (front back : Text) :
    (front ++ back : Text).lineFeedsBefore front.byteSize = front.count '\n' := by
  rw [lineFeedsBefore, take_bytes_append, count_bytes]

end Text

/-- A position stands before another one: on an earlier line, or on its line and further to the
left. -/
def LineColumn.Precedes (position other : LineColumn) : Prop :=
  position.line < other.line ∨ position.line = other.line ∧ position.column < other.column

namespace LineIndex

/-- Further on in a text stands a later position. -/
theorem precedes_placeAfter
    {front inside : Text}
    (nonempty : inside ≠ [])
    (small : (front ++ inside : Text).byteSize < UInt32.size) :
    (Text.placeAfter front).Precedes (Text.placeAfter (front ++ inside)) := by
  have smaller : front.byteSize < UInt32.size := by
    rw [Text.byteSize_append] at small
    omega
  unfold LineColumn.Precedes
  rw [UInt32.lt_iff_toNat_lt, UInt32.lt_iff_toNat_lt, ← UInt32.toNat_inj,
    Text.toNat_line_placeAfter smaller, Text.toNat_line_placeAfter small,
    Text.toNat_column_placeAfter smaller, Text.toNat_column_placeAfter small, List.count_append]
  by_cases broken : '\n' ∈ inside
  · have more := List.count_pos_iff.mpr broken
    omega
  · have wider := Text.utf16Size_pos_of_ne_nil nonempty
    rw [List.count_eq_zero.mpr broken, Text.lastLine_append_of_notMem front broken,
      Text.utf16Size_append]
    omega

/-- How the offsets of a text and the positions of a line index correspond. -/
structure Corresponds (index : LineIndex) (text : Text) : Prop where
  /-- Only an offset past the end has no position. -/
  none_iff : ∀ offset, index.lineColumn? offset = none ↔ text.byteSize < offset
  /-- A position counts line feeds, and the bytes behind the last of them. -/
  counts : ∀ offset position, index.lineColumn? offset = some position →
    position.line.toNat = text.lineFeedsBefore offset ∧
      position.column.toNat = text.bytesBefore offset
  /-- The position of an offset leads back to it. -/
  returns : ∀ offset position, index.lineColumn? offset = some position →
    index.offset? position = .ok (some offset)
  /-- Just the boundaries of characters have a column in UTF-16 units. -/
  units_iff : ∀ offset, (index.lineColumnUtf16? text offset).isSome = true ↔ text.Boundary offset
  /-- The line is the same, and the column counts the units since its start. -/
  units : ∀ offset position, index.lineColumnUtf16? text offset = some position →
    ∃ front line back bytes, text = front ++ (line ++ back) ∧
      (front ++ line).byteSize = offset ∧ front.EndsLine ∧ '\n' ∉ line ∧
      index.lineColumn? offset = some bytes ∧ position.line = bytes.line ∧
      position.column.toNat = line.utf16Size
  /-- On boundaries the order of positions is that of the offsets. -/
  increases : ∀ offset later position other, offset < later →
    index.lineColumnUtf16? text offset = some position →
    index.lineColumnUtf16? text later = some other → position.Precedes other

/-- The offsets of a text and the positions of its line index correspond. -/
theorem corresponds_ofText
    {text : Text}
    (small : text.byteSize < UInt32.size) :
    (ofText text).Corresponds text where
  none_iff := lineColumn?_eq_none_iff text
  counts offset position located :=
    toNat_lineColumn? (Nat.lt_of_le_of_lt (le_byteSize_of_lineColumn? located) small) located
  returns offset position located :=
    offset?_of_lineColumn? (Nat.lt_of_le_of_lt (le_byteSize_of_lineColumn? located) small) located
  units_iff offset := by
    constructor
    · intro some
      obtain ⟨position, found⟩ := Option.isSome_iff_exists.mp some
      obtain ⟨front, back, split, size, -⟩ := isPlace_of_lineColumnUtf16? found
      exact ⟨front, back, split, size⟩
    · intro boundary
      obtain ⟨position, isPlace⟩ := boundary.exists_place
      rw [lineColumnUtf16?_of_isPlace isPlace]
      rfl
  units offset position found := by
    obtain ⟨before, back, rfl, rfl, rfl⟩ := isPlace_of_lineColumnUtf16? found
    obtain ⟨front, whole, ends, oneLine⟩ := before.exists_endsLine_append
    have within : before.byteSize ≤ (before ++ back : Text).byteSize :=
      (Text.Boundary.append before back).le_byteSize
    refine ⟨front, before.lastLine, back, _, ?_, ?_, ends, oneLine, lineColumn?_eq within, ?_,
      Text.toNat_column_placeAfter (Nat.lt_of_le_of_lt within small)⟩
    · rw [← List.append_assoc, ← whole]
    · rw [← whole]
    · rw [Text.lineFeedsBefore_append]
      rfl
  increases offset later position other before found foundLater := by
    obtain ⟨front, back, rfl, rfl, rfl⟩ := isPlace_of_lineColumnUtf16? found
    obtain ⟨longer, behind, same, rfl, rfl⟩ := isPlace_of_lineColumnUtf16? foundLater
    obtain ⟨inside, rfl, rfl⟩ := Text.eq_append_of_byteSize_le same before.le
    refine precedes_placeAfter ?_ ?_
    · rintro rfl
      simp at before
    · rw [same, Text.byteSize_append] at small
      omega

/-- A text of two lines with characters of one, two and four bytes. -/
def mixedText : Text :=
  "é\r\n😀.a"

theorem corresponds_ofText_mixed :
    mixedText.byteSize < UInt32.size ∧
      (ofText mixedText).Corresponds mixedText ∧
      (ofText mixedText).lineColumn? 8 = some ⟨1, 4⟩ ∧
      (ofText mixedText).lineColumnUtf16? mixedText 8 = some ⟨1, 2⟩ ∧
      (ofText mixedText).lineColumnUtf16? mixedText 6 = none :=
  ⟨by decide, corresponds_ofText (by decide), by decide +kernel, by decide +kernel,
    by decide +kernel⟩

end LineIndex
end StyleTypings
