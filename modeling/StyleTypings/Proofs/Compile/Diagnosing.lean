import StyleTypings.Compile.Lessc
import StyleTypings.Proofs.Text.Separators

/-!
# Error lines of the LESS compiler

The LESS compiler ends its message with the file, the line and the column. From its error output
the first line that is not blank is taken apart again, whatever stands around that line. The
message may have the words that introduce the file or the place, and the file those that introduce
the place: only where the file itself has the words that introduce a file is another one found.
-/

namespace StyleTypings

namespace Text

/-! ## Numbers -/

theorem isBlank_of_isDigit {c : Char} (isDigit : c.isDigit = true) : isBlank c = false := by
  have bounds : 48 ≤ c.toNat ∧ c.toNat ≤ 57 := by
    simpa [Char.isDigit, UInt32.le_iff_toNat_le] using isDigit
  unfold isBlank
  simp
  omega

theorem ofNat_ne_nil (n : Nat) : ofNat n ≠ [] :=
  Nat.toDigits_ne_nil

theorem isDigit_of_mem_ofNat {n : Nat} {c : Char} (present : c ∈ ofNat n) : c.isDigit = true :=
  Nat.isDigit_of_mem_toDigits (by decide) (by decide) present

/-- The digits of a number are read as that number. -/
theorem natBelow?_ofNat {n bound : Nat} (below : n < bound) :
    natBelow? bound (ofNat n) = some n := by
  have digits : digits? (ofNat n) = some n := by
    have all : (ofNat n).all Char.isDigit = true :=
      List.all_eq_true.mpr fun c present => isDigit_of_mem_ofNat present
    have value : digitsValue (ofNat n) = n := Nat.ofDigitChars_ten_toDigits
    simp [digits?, ofNat_ne_nil, all, value]
  have unsigned : ∀ rest, ofNat n ≠ '+' :: rest := by
    intro rest signed
    have isDigit : '+'.isDigit = true := isDigit_of_mem_ofNat (signed ▸ List.mem_cons_self)
    exact absurd isDigit (by decide)
  unfold natBelow?
  split
  · next rest signed => exact absurd signed (unsigned rest)
  · simp [digits, below]

end Text

namespace Lessc

open Text

/-! ## Error lines as they are written -/

/-- The line and the column, as they stand between ` on line ` and the colon. -/
def place (line column : UInt32) : Text :=
  Text.ofNat line.toNat ++ (", column " ++ Text.ofNat column.toNat)

/-- An error line: a message, the file, and the line and the column of the error. -/
def errorLine (message file : Text) (line column : UInt32) : Text :=
  message ++ " in " ++ file ++ " on line " ++ place line column ++ ":"

/-- A text whose first line that is not blank is a given one, up to blanks around it. -/
inductive HasFirstLine (line : Text) : Text → Prop
  | blank
      {c : Char}
      {rest : Text}
      (isBlank : Text.isBlank c = true)
      (later : HasFirstLine line rest) :
      HasFirstLine line (c :: rest)
  | last
      {after : Text}
      (areBlank : ∀ c ∈ after, Text.isBlank c = true)
      (oneLine : '\n' ∉ after) :
      HasFirstLine line (line ++ after)
  | followed
      {after : Text}
      (areBlank : ∀ c ∈ after, Text.isBlank c = true)
      (oneLine : '\n' ∉ after)
      (following : Text) :
      HasFirstLine line (line ++ after ++ '\n' :: following)

/-! ## The first line -/

theorem firstLine_of_splitAt
    {errors line : Text}
    {others : List Text}
    (lines : splitAt '\n' errors = line :: others)
    (nonempty : trim line ≠ []) :
    firstLine errors = trim line := by
  unfold firstLine
  rw [lines, List.map_cons, List.find?_cons_of_pos (by simpa using nonempty)]
  rfl

/-- Blanks in front, line feeds among them, do not change the first line. -/
theorem firstLine_cons_of_isBlank {c : Char} (blank : isBlank c = true) (rest : Text) :
    firstLine (c :: rest) = firstLine rest := by
  unfold firstLine
  rw [splitAt]
  split
  · rfl
  · cases lines : splitAt '\n' rest with
    | nil => exact absurd lines (splitAt_ne_nil '\n' rest)
    | cons line others =>
        simp only [List.map_cons, trim_cons_of_isBlank blank]

/-- A line from which only the blanks behind it are trimmed is the first line where nothing but
blanks stands before it. -/
theorem firstLine_eq
    {line errors : Text}
    (nonempty : line ≠ [])
    (trimmed : ∀ after : Text, (∀ c ∈ after, isBlank c = true) → trim (line ++ after) = line)
    (oneLine : '\n' ∉ line)
    (isFirst : HasFirstLine line errors) :
    firstLine errors = line := by
  have whole {after : Text} (oneLineToo : '\n' ∉ after) :
      splitAt '\n' (line ++ after) = [line ++ after] := by
    rw [splitAt_eq_splitOn, List.splitOn_eq_singleton]
    exact fun present => (List.mem_append.mp present).elim oneLine oneLineToo
  induction isFirst with
  | blank isBlank later inductionHypothesis =>
      rw [firstLine_cons_of_isBlank isBlank, inductionHypothesis]
  | @last after areBlank oneLineToo =>
      have shown := trimmed after areBlank
      rw [firstLine_of_splitAt (whole oneLineToo) (shown.trans_ne nonempty), shown]
  | @followed after areBlank oneLineToo following =>
      have shown := trimmed after areBlank
      have lines := splitAt_append_cons '\n' (line ++ after) following
      rw [whole oneLineToo] at lines
      rw [firstLine_of_splitAt lines (shown.trans_ne nonempty), shown]

/-! ## The place -/

theorem number?_ofNat (n : UInt32) : number? (Text.ofNat n.toNat) = some n := by
  have solid : ∀ c ∈ Text.ofNat n.toNat, isBlank c = false := fun c present =>
    isBlank_of_isDigit (isDigit_of_mem_ofNat present)
  unfold number?
  rw [trim_of_solid solid, natBelow?_ofNat n.toNat_lt]
  exact congrArg some (UInt32.ofNat_toNat)

/-- The last digit of the column ends the place, so only the colon behind it is dropped. -/
theorem dropEndWhile_place (line column : UInt32) :
    dropEndWhile (· == ':') (place line column ++ [':']) = place line column := by
  have digits := ofNat_ne_nil column.toNat
  have kept : (place line column).rdropWhile (· == ':') = place line column := by
    refine List.rdropWhile_eq_self_iff.mpr fun nonempty isColon => ?_
    have isLast : (place line column).getLast nonempty =
        (Text.ofNat column.toNat).getLast digits := by
      simp [place, digits]
    have isDigit := isDigit_of_mem_ofNat (isLast ▸ List.getLast_mem digits)
    rw [beq_iff_eq.mp isColon] at isDigit
    exact absurd isDigit (by decide)
  exact (List.rdropWhile_concat_pos _ _ _ rfl).trans kept

theorem readLocation_place (line column : UInt32) :
    readLocation (place line column ++ [':']) = (some line, some column) := by
  have noComma : ',' ∉ Text.ofNat line.toNat := fun present =>
    absurd (isDigit_of_mem_ofNat present) (by decide)
  have cut : splitFirst? ", column " (place line column) =
      some (Text.ofNat line.toNat, Text.ofNat column.toNat) :=
    splitFirst?_append noComma " column ".toList (Text.ofNat column.toNat)
  unfold readLocation
  simp only [dropEndWhile_place, cut, number?_ofNat]

/-- What introduces a place does not begin in front of a number. -/
theorem infix_ofNat_iff {ending : Char} (solid : ' ' ≠ ending) (n : Nat) (back : Text) :
    " on line ".toList <:+: ' ' :: (Text.ofNat n ++ ending :: back) ↔
      " on line ".toList <:+: back := by
  have digit {c : Char} (noDigit : c.isDigit = false) : c ∉ Text.ofNat n := fun present =>
    Bool.false_ne_true (noDigit.symm.trans (isDigit_of_mem_ofNat present))
  obtain ⟨first, rest, digits⟩ := List.exists_cons_of_ne_nil (ofNat_ne_nil n)
  rw [digits] at digit ⊢
  have differs : 'o' ≠ first := List.ne_of_not_mem_cons (digit rfl)
  have absent : ' ' ∉ first :: (rest ++ [ending]) := by
    rw [← List.cons_append, List.mem_append, List.mem_singleton, not_or]
    exact ⟨digit rfl, solid⟩
  have word := @infix_word_iff ' ' 'o' first "n line ".toList (rest ++ [ending]) differs absent back
  simpa using word

/-- Behind the beginning of a place no other place begins: each blank in it stands before a word
with another first letter, or before a number. -/
theorem not_infix_place (line column : UInt32) :
    ¬ " on line ".toList <:+: (" on line " ++ (place line column ++ [':'])).tail := by
  have parts : (" on line " ++ (place line column ++ [':'])).tail =
      "on".toList ++ ' ' :: ("line".toList ++ ' ' :: (Text.ofNat line.toNat ++ ',' ::
        ' ' :: ("column".toList ++ ' ' :: (Text.ofNat column.toNat ++ ':' :: [])))) := by
    simp [place]
  have on (back : Text) :
      " on line ".toList <:+: "on".toList ++ back ↔ " on line ".toList <:+: back :=
    infix_append_iff_of_notMem (by decide) back
  have line (back : Text) :
      " on line ".toList <:+: ' ' :: ("line".toList ++ back) ↔ " on line ".toList <:+: back :=
    infix_word_iff (by decide) (by decide) back
  have column (back : Text) :
      " on line ".toList <:+: ' ' :: ("column".toList ++ back) ↔ " on line ".toList <:+: back :=
    infix_word_iff (by decide) (by decide) back
  rw [parts, on, line, infix_ofNat_iff (by decide), column, infix_ofNat_iff (by decide)]
  simp

/-! ## Error lines that are read back -/

theorem lineFeed_notMem_place (line column : UInt32) : '\n' ∉ place line column := by
  have digits (n : Nat) : '\n' ∉ Text.ofNat n := fun present =>
    absurd (isDigit_of_mem_ofNat present) (by decide)
  simp [place, digits]

/-- An error line begins with its message and ends with a colon, so it is found whole. -/
theorem firstLine_errorLine
    {message file errors : Text}
    {line column : UInt32}
    (begins : ∃ c ∈ message.head?, isBlank c = false)
    (oneLine : '\n' ∉ message)
    (oneLineToo : '\n' ∉ file)
    (isFirst : HasFirstLine (errorLine message file line column) errors) :
    firstLine errors = errorLine message file line column := by
  obtain ⟨first, isHead, solid⟩ := begins
  obtain ⟨rest, rfl⟩ := List.head?_eq_some_iff.mp isHead
  refine firstLine_eq (List.cons_ne_nil _ _) (fun after areBlank => ?_) ?_ isFirst
  · have trimmed := @trim_append first ':'
      (rest ++ " in " ++ file ++ " on line " ++ place line column) after solid rfl areBlank
    simpa [errorLine] using trimmed
  · rw [List.mem_cons, not_or] at oneLine
    simp [errorLine, oneLine, oneLineToo, lineFeed_notMem_place line column]

/-- An error line is taken apart into its message, its file, its line and its column, just if no
blank with the file behind it has the words that introduce a file. -/
theorem readError_eq_iff
    {message file errors : Text}
    {line column : UInt32}
    (begins : ∃ c ∈ message.head?, isBlank c = false)
    (oneLine : '\n' ∉ message)
    (oneLineToo : '\n' ∉ file)
    (isFirst : HasFirstLine (errorLine message file line column) errors)
    (input : Path) :
    readError errors input = ⟨.reported message, some ⟨file⟩, some line, some column⟩ ↔
      ¬ " in ".toList <:+: ' ' :: file := by
  have shown : firstLine errors = errorLine message file line column :=
    firstLine_errorLine begins oneLine oneLineToo isFirst
  have placed : splitLast? " on line " (errorLine message file line column) =
      some (message ++ " in " ++ file, place line column ++ [':']) := by
    refine (splitLast?_eq_some_iff (by decide) _ _ _).mpr ⟨?_, not_infix_place line column⟩
    simp [errorLine]
  have located : splitLast? " in " (message ++ " in " ++ file) = some (message, file) ↔
      ¬ " in ".toList <:+: ' ' :: file := by
    have behind : (" in ".toList ++ file).tail = "in".toList ++ ' ' :: file := rfl
    have skipped :
        " in ".toList <:+: "in".toList ++ ' ' :: file ↔ " in ".toList <:+: ' ' :: file :=
      infix_append_iff_of_notMem (by decide) (' ' :: file)
    rw [splitLast?_eq_some_iff (by decide), List.append_assoc, behind, skipped]
    exact and_iff_right rfl
  rw [← located]
  unfold readError
  rw [shown]
  simp only [placed, readLocation_place]
  cases splitLast? " in " (message ++ " in " ++ file) with
  | none => simp
  | some parts => simp [Prod.ext_iff]

/-- An error output with a blank line in front, a message that names another file and another
place, and a file that has the words of a place in its name. -/
def nestedErrors : Text :=
  "\n \tFileError: 'b' wasn't found in a.less on line 9 in /on line 2/in/c.less on line 3, " ++
    "column 14: \r\n2 .a \x7b\n"

theorem readError_eq_iff_nested :
    HasFirstLine (errorLine "FileError: 'b' wasn't found in a.less on line 9"
        "/on line 2/in/c.less" 3 14) nestedErrors ∧
      ¬ " in ".toList <:+: " /on line 2/in/c.less".toList ∧
      readError nestedErrors "main.less" =
        ⟨.reported "FileError: 'b' wasn't found in a.less on line 9",
          some "/on line 2/in/c.less", some 3, some 14⟩ := by
  have isFirst : HasFirstLine (errorLine "FileError: 'b' wasn't found in a.less on line 9"
      "/on line 2/in/c.less" 3 14) nestedErrors := by
    have parts : nestedErrors = '\n' :: ' ' :: '\t' ::
        (errorLine "FileError: 'b' wasn't found in a.less on line 9" "/on line 2/in/c.less" 3 14 ++
          [' ', '\r'] ++ '\n' :: "2 .a \x7b\n".toList) := by decide +kernel
    rw [parts]
    exact .blank rfl <| .blank rfl <| .blank rfl <|
      .followed (List.all_eq_true.mp rfl) (by decide) _
  have begins : ∃ c ∈ "FileError: 'b' wasn't found in a.less on line 9".toList.head?,
      isBlank c = false := ⟨'F', by decide +kernel, by decide⟩
  have fits : ¬ " in ".toList <:+: " /on line 2/in/c.less".toList := by decide +kernel
  have read := readError_eq_iff begins (by decide +kernel) (by decide +kernel) isFirst "main.less"
  exact ⟨isFirst, fits, read.mpr fits⟩

end Lessc
end StyleTypings
