import StyleTypings.Proofs.Text.Offsets

/-!
# Positions that a text has

A position is one of a text if the text has its line and the line is as long as its column says.
From a position a line index leads to an offset by the start of the line alone, so the offset
has that position just if the text has it. Where the start and the column add up to no word of
32 bits, it leads nowhere, and it does not refuse the position either.
-/

namespace StyleTypings

namespace Text

/-- The line of a number in a text, and the offset at which it starts. -/
def HasLine (text : Text) (number start : Nat) (line : Text) : Prop :=
  ∃ front back : Text, text = front ++ (line ++ back) ∧ front.byteSize = start ∧
    front.count '\n' = number ∧ front.EndsLine ∧ '\n' ∉ line ∧
    ∀ c, back.head? = some c → c = '\n'

/-- A position that a text has: a column no further than the end of a line, whose offset is a
word of 32 bits. -/
def HasPosition (text : Text) (position : LineColumn) : Prop :=
  ∃ start line, text.HasLine position.line.toNat start line ∧
    position.column.toNat ≤ line.byteSize ∧ start + position.column.toNat < UInt32.size

/-- Behind a text of whole lines the last line is empty. -/
theorem EndsLine.lastLine_eq_nil {front : Text} (ends : front.EndsLine) :
    front.lastLine = [] := by
  rcases ends with rfl | last
  · rfl
  · obtain ⟨before, rfl⟩ := List.getLast?_eq_some_iff.mp last
    rw [lastLine_append_of_mem before List.mem_cons_self, lastLine_cons_lineFeed]
    rfl

/-- A line reaches up to the next line feed. -/
theorem exists_hasLine
    (front back : Text)
    (ends : front.EndsLine) :
    ∃ line, (front ++ back : Text).HasLine (front.count '\n') front.byteSize line := by
  refine ⟨back.takeWhile (· != '\n'), front, back.dropWhile (· != '\n'), ?_, rfl, rfl, ends,
    fun among => ?_, fun c first => ?_⟩
  · rw [List.takeWhile_append_dropWhile]
  · simpa using List.mem_takeWhile_imp among
  · simpa [first] using List.head?_dropWhile_not (· != '\n') back

end Text

namespace LineIndex

/-- Every line starts behind the line feeds of the lines before it. -/
theorem exists_of_getElem?_startsAfter
    {offset number start : Nat}
    {text : Text}
    (starts : (startsAfter offset text)[number]? = some start) :
    ∃ front back : Text, text = front ++ '\n' :: back ∧ front.count '\n' = number ∧
      start = offset + front.byteSize + 1 := by
  induction text generalizing offset number with
  | nil => exact absurd starts nofun
  | cons c rest inductionHypothesis =>
      rw [startsAfter] at starts
      split at starts
      · next lineFeed =>
          subst lineFeed
          cases number with
          | zero => exact ⟨[], rest, rfl, rfl, (Option.some.inj starts).symm⟩
          | succ number =>
              obtain ⟨front, back, rfl, rfl, rfl⟩ := inductionHypothesis starts
              refine ⟨'\n' :: front, back, rfl, List.count_cons_self, ?_⟩
              rw [Text.byteSize_cons]
              omega
      · next other =>
          obtain ⟨front, back, rfl, rfl, rfl⟩ := inductionHypothesis starts
          refine ⟨c :: front, back, rfl, List.count_cons_of_ne other, ?_⟩
          rw [Text.byteSize_cons]
          omega

/-- The table of a line index holds the starts of the lines. -/
theorem getElem?_starts_iff {text : Text} {number start : Nat} :
    (ofText text).starts[number]? = some start ↔ ∃ line, text.HasLine number start line := by
  constructor
  · intro starts
    cases number with
    | zero =>
        obtain rfl : 0 = start := Option.some.inj starts
        exact Text.exists_hasLine [] text (.inl rfl)
    | succ number =>
        obtain ⟨front, back, rfl, rfl, rfl⟩ := exists_of_getElem?_startsAfter starts
        obtain ⟨line, hasLine⟩ :=
          Text.exists_hasLine (front ++ ['\n']) back (.inr List.getLast?_concat)
        refine ⟨line, ?_⟩
        rw [List.append_assoc, List.singleton_append, List.count_append, Text.byteSize_append]
          at hasLine
        rw [Nat.zero_add]
        exact hasLine
  · rintro ⟨line, front, back, rfl, rfl, rfl, ends, -, -⟩
    have within : front.byteSize ≤ (front ++ (line ++ back) : Text).byteSize :=
      (Text.Boundary.append front _).le_byteSize
    have started := lineStart_append front (line ++ back)
    have column := lineStart_add_bytesBefore within
    rw [ends.lastLine_eq_nil] at started
    have starts := getElem?_starts_lineFeedsBefore within
    rw [Text.lineFeedsBefore_append] at starts
    rw [starts]
    congr 1
    simp only [Text.byteSize_nil] at started
    omega

end LineIndex

namespace Text

/-- The bytes of whole lines end with that of a line feed. -/
theorem EndsLine.rtakeWhile_append
    {front : Text}
    (ends : front.EndsLine)
    {inside : Bytes}
    (oneLine : lineFeedByte ∉ inside) :
    (front.bytes ++ inside).rtakeWhile (· != lineFeedByte) = inside := by
  have kept : ∀ byte ∈ inside.reverse, (byte != lineFeedByte) = true := fun byte among =>
    bne_iff_ne.mpr fun same => oneLine (same ▸ List.mem_reverse.mp among)
  have stops : front.bytes.reverse.takeWhile (· != lineFeedByte) = [] := by
    rcases ends with rfl | last
    · rfl
    · obtain ⟨before, rfl⟩ := List.getLast?_eq_some_iff.mp last
      rw [bytes_append, List.reverse_append]
      rfl
  rw [List.rtakeWhile, List.reverse_append, List.takeWhile_append_of_pos kept, stops,
    List.append_nil, List.reverse_reverse]

/-- Up to its end the offsets of a line have the number of the line and the bytes since its
start. -/
theorem HasLine.counts
    {text line : Text}
    {number start column : Nat}
    (hasLine : text.HasLine number start line)
    (within : column ≤ line.byteSize) :
    start + column ≤ text.byteSize ∧ text.lineFeedsBefore (start + column) = number ∧
      text.bytesBefore (start + column) = column := by
  obtain ⟨front, back, rfl, rfl, rfl, ends, oneLine, -⟩ := hasLine
  have taken : (front ++ (line ++ back) : Text).bytes.take (front.byteSize + column) =
      front.bytes ++ line.bytes.take column := by
    rw [bytes_append, bytes_append, ← length_bytes front, List.take_length_add_append,
      List.take_append_of_le_length (by rwa [length_bytes])]
  have none : lineFeedByte ∉ line.bytes.take column := fun among =>
    lineFeedByte_notMem oneLine (List.mem_of_mem_take among)
  refine ⟨?_, ?_, ?_⟩
  · rw [byteSize_append, byteSize_append]
    omega
  · rw [lineFeedsBefore, taken, List.count_append, count_bytes, List.count_eq_zero.mpr none,
      Nat.add_zero]
  · rw [bytesBefore, taken, ends.rtakeWhile_append none, List.length_take, length_bytes]
    omega

/-- Past the end of a line the number of line feeds is greater. -/
theorem HasLine.lt_lineFeedsBefore
    {text line : Text}
    {number start offset : Nat}
    (hasLine : text.HasLine number start line)
    (past : start + line.byteSize < offset)
    (within : offset ≤ text.byteSize) :
    number < text.lineFeedsBefore offset := by
  obtain ⟨front, back, rfl, rfl, rfl, -, -, stops⟩ := hasLine
  cases back with
  | nil =>
      rw [List.append_nil, byteSize_append] at within
      omega
  | cons c rest =>
      obtain rfl := stops c rfl
      have whole : (front ++ (line ++ '\n' :: rest) : Text) =
          (front ++ line ++ ['\n']) ++ rest := by simp
      have size : (front ++ line ++ ['\n'] : Text).bytes.length ≤ offset := by
        have width : ('\n' : Char).utf8Size = 1 := rfl
        rw [length_bytes, byteSize_append, byteSize_append, byteSize_cons, byteSize_nil, width]
        omega
      have begins : (front ++ line ++ ['\n'] : Text).bytes <+:
          (front ++ (line ++ '\n' :: rest) : Text).bytes.take offset := by
        rw [whole, bytes_append _ rest]
        exact List.prefix_take_iff.mpr ⟨List.prefix_append _ _, size⟩
      have counted := begins.sublist.count_le lineFeedByte
      rw [count_bytes, List.count_append, List.count_append, List.count_singleton_self] at counted
      unfold lineFeedsBefore
      omega

end Text

namespace LineIndex

/-- What a line index leads to, other than a refusal, is the sum of the start of a line and the
column. -/
theorem offset?_eq_iff
    {text : Text}
    {position : LineColumn}
    {outcome : Except WordOverflow (Option Nat)}
    (answers : outcome ≠ .ok none) :
    (ofText text).offset? position = outcome ↔
      ∃ start line, text.HasLine position.line.toNat start line ∧
        (if start + position.column.toNat < UInt32.size then
          .ok (if start + position.column.toNat ≤ text.byteSize then
            some (start + position.column.toNat) else none)
        else
          .error ⟨start, position.column.toNat⟩) = outcome := by
  constructor
  · rintro rfl
    cases starts : (ofText text).starts[position.line.toNat]? with
    | none =>
        refine absurd ?_ answers
        unfold offset?
        rw [starts]
    | some start =>
        obtain ⟨line, hasLine⟩ := getElem?_starts_iff.mp starts
        exact ⟨start, line, hasLine, (offset?_eq starts).symm⟩
  · rintro ⟨start, line, hasLine, same⟩
    rw [offset?_eq (getElem?_starts_iff.mpr ⟨line, hasLine⟩), same]

/-- A line index accepts just the lines of the text with every column that does not lead past the
end of the text. -/
theorem offset?_eq_ok_some_iff {text : Text} {position : LineColumn} {offset : Nat} :
    (ofText text).offset? position = .ok (some offset) ↔
      ∃ start line, text.HasLine position.line.toNat start line ∧
        start + position.column.toNat = offset ∧ offset < UInt32.size ∧
          offset ≤ text.byteSize := by
  refine (offset?_eq_iff (by simp)).trans ?_
  refine exists_congr fun start => exists_congr fun line => and_congr_right fun _ => ?_
  constructor
  · intro same
    split at same
    · next small =>
        obtain ⟨within, same⟩ := Option.ite_none_right_eq_some.mp (Except.ok.inj same)
        obtain rfl := Option.some.inj same
        exact ⟨rfl, small, within⟩
    · exact absurd same nofun
  · rintro ⟨rfl, small, within⟩
    rw [if_pos small, if_pos within]

/-- A line index comes to no answer just for a line of the text whose start and the column add up
to no word. -/
theorem offset?_eq_error_iff {text : Text} {position : LineColumn} {overflow : WordOverflow} :
    (ofText text).offset? position = .error overflow ↔
      ∃ start line, text.HasLine position.line.toNat start line ∧
        ⟨start, position.column.toNat⟩ = overflow ∧
          UInt32.size ≤ start + position.column.toNat := by
  refine (offset?_eq_iff (by simp)).trans ?_
  refine exists_congr fun start => exists_congr fun line => and_congr_right fun _ => ?_
  constructor
  · intro same
    split at same
    · exact absurd same nofun
    · next large => exact ⟨Except.error.inj same, Nat.le_of_not_lt large⟩
  · rintro ⟨rfl, large⟩
    rw [if_neg (Nat.not_lt.mpr large)]

/-- A line index accepts every column that keeps the sum of the line's start and the column within
the text, and stops at a sum that is no word of 32 bits. An offset that it leads to has the
position that was asked for just if the text has that position: a line that is long enough. -/
theorem offset?_leads_back_iff (text : Text) (position : LineColumn) :
    (∀ offset, (ofText text).offset? position = .ok (some offset) ↔
      ∃ start line, text.HasLine position.line.toNat start line ∧
        start + position.column.toNat = offset ∧ offset < UInt32.size ∧
          offset ≤ text.byteSize) ∧
      (∀ overflow, (ofText text).offset? position = .error overflow ↔
        ∃ start line, text.HasLine position.line.toNat start line ∧
          ⟨start, position.column.toNat⟩ = overflow ∧
            UInt32.size ≤ start + position.column.toNat) ∧
      ((∃ offset, (ofText text).offset? position = .ok (some offset) ∧
          (ofText text).lineColumn? offset = some position) ↔
        text.HasPosition position) := by
  refine ⟨fun _ => offset?_eq_ok_some_iff, fun _ => offset?_eq_error_iff, ?_⟩
  constructor
  · rintro ⟨offset, found, located⟩
    obtain ⟨-, -, -, -, small, within⟩ := offset?_eq_ok_some_iff.mp found
    obtain ⟨number, column⟩ := toNat_lineColumn? small located
    have bound := Text.bytesBefore_le text offset
    obtain ⟨line, hasLine⟩ := getElem?_starts_iff.mp (getElem?_starts_lineFeedsBefore within)
    refine ⟨_, line, number ▸ hasLine, Nat.le_of_not_lt fun past => ?_, by omega⟩
    have further : offset - text.bytesBefore offset + line.byteSize < offset := by omega
    exact absurd (hasLine.lt_lineFeedsBefore further within) (Nat.lt_irrefl _)
  · rintro ⟨start, line, hasLine, within, small⟩
    obtain ⟨inside, number, column⟩ := hasLine.counts within
    refine ⟨_, offset?_eq_ok_some_iff.mpr ⟨start, line, hasLine, rfl, small, inside⟩, ?_⟩
    rw [lineColumn?_eq inside, number, column]
    simp

/-- A column past the end of a line leads into the next one, and a column that is too large for
the sum is not refused. -/
theorem offset?_past_line :
    (ofText "a\nbc".toList).offset? ⟨0, 3⟩ = .ok (some 3) ∧
      (ofText "a\nbc".toList).lineColumn? 3 = some ⟨1, 1⟩ ∧
      (ofText "ab\nc".toList).offset? ⟨1, 4294967295⟩ = .error ⟨3, 4294967295⟩ :=
  ⟨rfl, by decide +kernel, rfl⟩

end LineIndex
end StyleTypings
