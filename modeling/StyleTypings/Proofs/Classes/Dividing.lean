import Mathlib.Order.Monotone.Basic
import StyleTypings.Proofs.Classes.Words

/-!
# Where the words of a name are divided

The letters of a name, which is what is no separator, fall into its words one after the other.
Letters next to each other fall into different words just where the case changes, and letters with
a separator between them always do.

A name is read place by place. So far some words are closed and one may be open, and whether a
letter begins a new word is asked of the characters in the places before and behind it. As long as
a word is open the place before holds its last letter, so the reading never looks behind the
beginning of the name or at a separator.
-/

namespace StyleTypings
namespace NameFormat

open Text

/-! ## Reading place by place -/

/-- How far the reading of a name has come: the words that are closed, and the open word, last
character first. -/
structure Reading where
  closed : List Text
  reversed : Text
  deriving DecidableEq, Repr

namespace Reading

/-- The words if the open word is closed. -/
def words (reading : Reading) : List Text :=
  reading.closed ++ closeWord reading.reversed

/-- The character in the place before a place of a name, if there is such a place. -/
def behind? (name : Text) : Nat → Option Char
  | 0 => .none
  | place + 1 => name[place]?

/-- The character before a place of a name, which is asked for only if a word is open. -/
def previous? (reading : Reading) (name : Text) (place : Nat) : Option Char :=
  if reading.reversed.isEmpty then .none else behind? name place

/-- Reads the character in a place of a name. -/
def step
    (name : Text)
    (place : Nat)
    (c : Char)
    (reading : Reading) : Reading :=
  if isSeparator c then
    ⟨reading.words, []⟩
  else if beginsWord (reading.previous? name place) c name[place + 1]? then
    ⟨reading.words, [c]⟩
  else
    ⟨reading.closed, c :: reading.reversed⟩

/-- The reading of a name before a place. -/
def upTo (name : Text) : Nat → Reading
  | 0 => ⟨[], []⟩
  | place + 1 =>
      match name[place]? with
      | some c => (upTo name place).step name place c
      | .none => upTo name place

end Reading

/-- The word that a letter falls into if the letters of some words are counted through. -/
def wordOf : List Text → Nat → Nat
  | [], _ => 0
  | word :: others, letter =>
      if letter < word.length then 0 else wordOf others (letter - word.length) + 1

/-- How many letters stand before a place of a name. -/
def lettersBefore (name : Text) (place : Nat) : Nat :=
  ((name.take place).filter fun c => !isSeparator c).length

/-- The number of the word that the letter in a place of a name falls into. -/
def wordNumber (name : Text) (place : Nat) : Nat :=
  wordOf (words name) (lettersBefore name place)

/-- A place of a name holds a letter. -/
def LetterAt (name : Text) (place : Nat) (c : Char) : Prop :=
  name[place]? = some c ∧ isSeparator c = false

/-! ## What a reading has read -/

/-- The open word becomes the beginning of a word. -/
theorem exists_wordsFrom_eq
    {reversed : Text}
    (isOpen : reversed ≠ [])
    (text : Text) :
    ∃ back others, wordsFrom reversed text = (reversed.reverse ++ back) :: others := by
  have closed {reversed : Text} (isOpen : reversed ≠ []) :
      closeWord reversed = [reversed.reverse] := by
    simp [closeWord, isOpen]
  fun_induction wordsFrom reversed text with
  | case1 reversed => exact ⟨[], [], by rw [closed isOpen, List.append_nil]⟩
  | case2 reversed c rest _ _
  | case3 reversed c rest _ _ _ =>
      exact ⟨[], _, by rw [closed isOpen, List.append_nil, List.singleton_append]⟩
  | case4 reversed c rest _ _ inductionHypothesis =>
      obtain ⟨back, others, split⟩ := inductionHypothesis (List.cons_ne_nil c reversed)
      exact ⟨c :: back, others, by rw [split, List.reverse_cons, List.append_assoc]; rfl⟩

/-- What the reading before a place has to do with the name. -/
structure Reading.Reads
    (name : Text)
    (place : Nat)
    (reading : Reading) : Prop where
  /-- The letters before the place are those of the words, -/
  letters : reading.closed.flatten ++ reading.reversed.reverse =
    (name.take place).filter fun c => !isSeparator c
  /-- the place before holds the last letter of the open word, -/
  behind : reading.reversed ≠ [] → behind? name place = reading.reversed.head?
  /-- and the words of the name are the closed ones and those that the rest makes with the open
  one. -/
  rest : NameFormat.words name =
    reading.closed ++ wordsFrom reading.reversed (name.drop place)

namespace Reading

theorem flatten_words (reading : Reading) :
    reading.words.flatten = reading.closed.flatten ++ reading.reversed.reverse := by
  rw [words, List.flatten_append, flatten_closeWord]

theorem length_words_of_open
    {reading : Reading}
    (isOpen : reading.reversed ≠ []) :
    reading.words.length = reading.closed.length + 1 := by
  simp [words, closeWord, isOpen]

/-- As long as a word is open its last letter is looked at. -/
theorem Reads.previous?_eq
    {name : Text}
    {place : Nat}
    {reading : Reading}
    (reads : Reads name place reading) :
    reading.previous? name place = reading.reversed.head? := by
  unfold previous?
  split
  case isTrue isClosed => rw [List.isEmpty_iff.mp isClosed, List.head?_nil]
  case isFalse isOpen => exact reads.behind (mt List.isEmpty_iff.mpr isOpen)

/-- One more character is read. -/
theorem Reads.step
    {name : Text}
    {place : Nat}
    {c : Char}
    {reading : Reading}
    (reads : Reads name place reading)
    (found : name[place]? = some c) :
    Reads name (place + 1) (reading.step name place c) := by
  obtain ⟨inside, rfl⟩ := List.getElem?_eq_some_iff.mp found
  have dropped : name.drop place = name[place] :: name.drop (place + 1) :=
    List.drop_eq_getElem_cons inside
  have next : (name.drop (place + 1)).head? = name[place + 1]? := List.head?_drop
  have taken := List.take_succ_eq_append_getElem inside
  have letters := reads.letters
  have rest := reads.rest
  rw [dropped, wordsFrom, next] at rest
  -- Now the step and the words from here on ask the same two questions: the character looked back
  -- at is the last of the open word.
  rw [Reading.step, reads.previous?_eq]
  split
  case isTrue separator =>
    rw [if_pos separator] at rest
    constructor
    · rw [taken, List.filter_append, List.filter_cons_of_neg (by simp [separator]),
        List.filter_nil, List.append_nil, flatten_words, letters]
      exact List.append_nil _
    · exact fun isOpen => absurd rfl isOpen
    · rw [rest, words, List.append_assoc]
  case isFalse noSeparator =>
    rw [if_neg noSeparator] at rest
    have kept : (name.take (place + 1)).filter (fun c => !isSeparator c) =
        reading.closed.flatten ++ reading.reversed.reverse ++ [name[place]] := by
      rw [taken, List.filter_append, List.filter_cons_of_pos (by simp [noSeparator]), letters]
      rfl
    split
    case isTrue begins =>
      rw [if_pos begins] at rest
      constructor
      · rw [kept, flatten_words]
        rfl
      · exact fun _ => found
      · rw [rest, words, List.append_assoc]
    case isFalse continues =>
      rw [if_neg continues] at rest
      constructor
      · rw [kept, List.reverse_cons, List.append_assoc]
      · exact fun _ => found
      · exact rest

theorem upTo_succ
    {name : Text}
    {place : Nat}
    {c : Char}
    (found : name[place]? = some c) :
    upTo name (place + 1) = (upTo name place).step name place c := by
  rw [upTo, found]

theorem reads_upTo
    {name : Text}
    {place : Nat}
    (inside : place ≤ name.length) :
    Reads name place (upTo name place) := by
  induction place with
  | zero => exact ⟨rfl, fun isOpen => absurd rfl isOpen, rfl⟩
  | succ place inductionHypothesis =>
      have found := List.getElem?_eq_getElem (Nat.lt_of_succ_le inside)
      rw [upTo_succ found]
      exact (inductionHypothesis (Nat.le_of_succ_le inside)).step found

/-- Read to its end, a name has its words. -/
theorem words_upTo (name : Text) : (upTo name name.length).words = NameFormat.words name := by
  have rest := (reads_upTo (Nat.le_refl name.length)).rest
  rw [List.drop_length] at rest
  exact rest.symm

end Reading

/-! ## Which word a letter falls into -/

theorem wordOf_append
    (front : List Text)
    {word : Text}
    {letter : Nat}
    (inside : letter < word.length)
    (back : List Text) :
    wordOf (front ++ word :: back) (front.flatten.length + letter) = front.length := by
  induction front with
  | nil => simp [wordOf, inside]
  | cons first others inductionHypothesis =>
      have behind : first.length + others.flatten.length + letter - first.length =
          others.flatten.length + letter := by
        omega
      rw [List.cons_append, wordOf, List.flatten_cons, List.length_append, if_neg (by omega),
        behind, inductionHypothesis, List.length_cons]

/-- The letter in a place of a name falls into a word: it is a letter of that word, behind as many
letters of it and of the words in front as stand before it in the name. -/
def FallsInto
    (name : Text)
    (place : Nat)
    (c : Char)
    (number : Nat) : Prop :=
  ∃ before after, (words name)[number]? = some (before ++ c :: after) ∧
    (((words name).take number).flatten ++ before).length = lettersBefore name place

namespace LetterAt

variable {name : Text} {place : Nat} {c : Char}

theorem lt_length (isLetter : LetterAt name place c) : place < name.length :=
  (List.getElem?_eq_some_iff.mp isLetter.1).1

/-- A letter begins a word or goes on with the open one. -/
theorem upTo_succ (isLetter : LetterAt name place c) :
    Reading.upTo name (place + 1) =
      if beginsWord (Reading.upTo name place).reversed.head? c name[place + 1]? then
        ⟨(Reading.upTo name place).words, [c]⟩
      else
        ⟨(Reading.upTo name place).closed, c :: (Reading.upTo name place).reversed⟩ := by
  have reads := Reading.reads_upTo (Nat.le_of_lt isLetter.lt_length)
  rw [Reading.upTo_succ isLetter.1, Reading.step, reads.previous?_eq, isLetter.2,
    if_neg Bool.false_ne_true]

theorem exists_reversed (isLetter : LetterAt name place c) :
    ∃ more, (Reading.upTo name (place + 1)).reversed = c :: more := by
  rw [isLetter.upTo_succ]
  split
  · exact ⟨[], rfl⟩
  · exact ⟨_, rfl⟩

theorem lettersBefore_succ (isLetter : LetterAt name place c) :
    lettersBefore name (place + 1) = lettersBefore name place + 1 := by
  obtain ⟨inside, rfl⟩ := List.getElem?_eq_some_iff.mp isLetter.1
  unfold lettersBefore
  rw [List.take_succ_eq_append_getElem inside, List.filter_append,
    List.filter_cons_of_pos (by simp [isLetter.2]), List.length_append]
  rfl

/-- A letter is the last of the open word when it has been read. -/
theorem exists_words_eq (isLetter : LetterAt name place c) :
    ∃ before after others,
      words name = (Reading.upTo name (place + 1)).closed ++ (before ++ c :: after) :: others ∧
        lettersBefore name place =
          (Reading.upTo name (place + 1)).closed.flatten.length + before.length := by
  obtain ⟨more, reversed⟩ := isLetter.exists_reversed
  have reads : Reading.Reads name (place + 1) (Reading.upTo name (place + 1)) :=
    Reading.reads_upTo isLetter.lt_length
  obtain ⟨after, others, split⟩ :=
    exists_wordsFrom_eq (List.cons_ne_nil c more) (name.drop (place + 1))
  refine ⟨more.reverse, after, others, ?_, ?_⟩
  · rw [reads.rest, reversed, split, List.reverse_cons, List.append_assoc]
    rfl
  · have letters := congrArg List.length reads.letters
    have counted := isLetter.lettersBefore_succ
    rw [reversed, List.length_append, List.length_reverse, List.length_cons] at letters
    rw [lettersBefore, ← letters] at counted
    rw [List.length_reverse]
    omega

/-- A letter falls into the word behind those that are closed when it has been read. -/
theorem wordNumber_eq (isLetter : LetterAt name place c) :
    wordNumber name place = (Reading.upTo name (place + 1)).closed.length := by
  obtain ⟨before, after, others, isWords, counted⟩ := isLetter.exists_words_eq
  rw [wordNumber, counted, isWords]
  apply wordOf_append
  rw [List.length_append, List.length_cons]
  omega

theorem fallsInto (isLetter : LetterAt name place c) :
    FallsInto name place c (wordNumber name place) := by
  obtain ⟨before, after, others, isWords, counted⟩ := isLetter.exists_words_eq
  rw [isLetter.wordNumber_eq]
  refine ⟨before, after, ?_, ?_⟩
  · rw [isWords, List.getElem?_append_right (Nat.le_refl _), Nat.sub_self]
    rfl
  · rw [isWords, List.take_left, List.length_append, counted]

/-- A letter next to another falls into another word just if it begins one. -/
theorem wordNumber_ne_iff
    {before : Char}
    (isBefore : LetterAt name place before)
    (isLetter : LetterAt name (place + 1) c) :
    wordNumber name place ≠ wordNumber name (place + 1) ↔
      beginsWord (some before) c name[place + 2]? = true := by
  obtain ⟨more, reversed⟩ := isBefore.exists_reversed
  have opened : (Reading.upTo name (place + 1)).reversed ≠ [] := by simp [reversed]
  have reads := isLetter.upTo_succ
  rw [reversed, List.head?_cons] at reads
  rw [isBefore.wordNumber_eq, isLetter.wordNumber_eq, reads]
  split
  case isTrue begins =>
    have longer := Reading.length_words_of_open opened
    exact iff_of_true (by simp only; omega) begins
  case isFalse continues =>
    exact iff_of_false (fun differ => differ rfl) continues

end LetterAt

/-! ## Words on both sides of a separator -/

namespace Reading

/-- Words are only added. -/
theorem le_length_step
    (name : Text)
    (place : Nat)
    (c : Char)
    (reading : Reading) :
    reading.closed.length ≤ (reading.step name place c).closed.length ∧
      reading.words.length ≤ (reading.step name place c).words.length := by
  have closed : reading.closed.length ≤ reading.words.length := by
    rw [words, List.length_append]
    exact Nat.le_add_right _ _
  unfold step
  split
  · exact ⟨closed, by simp [words, closeWord]⟩
  · split
    · exact ⟨closed, by simp [words, closeWord]⟩
    -- The letter goes on with the open word, or opens one where none is.
    · refine ⟨Nat.le_refl _, ?_⟩
      cases isOpen : reading.reversed <;> simp [words, closeWord, isOpen]

theorem monotone_upTo (name : Text) :
    Monotone (fun place => (upTo name place).closed.length) ∧
      Monotone fun place => (upTo name place).words.length := by
  have grows (place : Nat) :
      (upTo name place).closed.length ≤ (upTo name (place + 1)).closed.length ∧
        (upTo name place).words.length ≤ (upTo name (place + 1)).words.length := by
    rw [upTo]
    split
    · exact le_length_step name place _ _
    · exact ⟨Nat.le_refl _, Nat.le_refl _⟩
  exact ⟨monotone_nat_of_le_succ fun place => (grows place).1,
    monotone_nat_of_le_succ fun place => (grows place).2⟩

end Reading

/-- A separator closes the open word. -/
theorem wordNumber_lt_of_separator
    {name : Text}
    {first place second : Nat}
    {before separator c : Char}
    (isBefore : LetterAt name first before)
    (found : name[place]? = some separator)
    (separates : isSeparator separator = true)
    (isLetter : LetterAt name second c)
    (behindFirst : first < place)
    (beforeSecond : place < second) :
    wordNumber name first < wordNumber name second := by
  obtain ⟨closedGrow, wordsGrow⟩ := Reading.monotone_upTo name
  obtain ⟨more, reversed⟩ := isBefore.exists_reversed
  have opened : (Reading.upTo name (first + 1)).reversed ≠ [] := by simp [reversed]
  have closed : (Reading.upTo name (place + 1)).closed = (Reading.upTo name place).words := by
    rw [Reading.upTo_succ found, Reading.step, if_pos separates]
  calc wordNumber name first
      = (Reading.upTo name (first + 1)).closed.length := isBefore.wordNumber_eq
    _ < (Reading.upTo name (first + 1)).words.length := by
        rw [Reading.length_words_of_open opened]
        exact Nat.lt_succ_self _
    _ ≤ (Reading.upTo name place).words.length := wordsGrow behindFirst
    _ = (Reading.upTo name (place + 1)).closed.length := by rw [closed]
    _ ≤ (Reading.upTo name (second + 1)).closed.length :=
        closedGrow (Nat.succ_le_succ (Nat.le_of_lt beforeSecond))
    _ = wordNumber name second := isLetter.wordNumber_eq.symm

/-! ## Names -/

/-- The case changes between a letter and the one before it: it is in upper case, and the one
before it is in lower case, or a digit, or in upper case as well if a letter in lower case
follows. -/
def ChangesCase (before c : Char) (next : Option Char) : Prop :=
  isUpper c = true ∧
    (isLower before = true ∨ before.isDigit = true ∨
      (isUpper before = true ∧ ∃ following, next = some following ∧ isLower following = true))

theorem beginsWord_iff (before c : Char) (next : Option Char) :
    beginsWord (some before) c next = true ↔ ChangesCase before c next := by
  simp [beginsWord, ChangesCase, or_assoc, Option.any_eq_true]

/-- How a name is divided into its words. -/
structure IsDivided (name : Text) : Prop where
  /-- No word is empty, -/
  nonempty : ∀ word ∈ words name, word ≠ []
  /-- none has a separator in it, -/
  solid : ∀ word ∈ words name, ∀ c ∈ word, isSeparator c = false
  /-- and together they are the name without its separators. -/
  flatten : (words name).flatten = name.filter fun c => !isSeparator c
  /-- So each letter falls into a word. -/
  falls : ∀ place c, LetterAt name place c → FallsInto name place c (wordNumber name place)
  /-- Letters next to each other fall into different words just where the case changes. -/
  changed : ∀ place before c, LetterAt name place before → LetterAt name (place + 1) c →
    (wordNumber name place ≠ wordNumber name (place + 1) ↔
      ChangesCase before c name[place + 2]?)
  /-- Letters with a separator between them fall into different words. -/
  separated : ∀ first place second before separator c,
    LetterAt name first before → name[place]? = some separator →
      isSeparator separator = true → LetterAt name second c →
        first < place → place < second → wordNumber name first ≠ wordNumber name second
  /-- The words are found by reading the name place by place. -/
  read : words name = (Reading.upTo name name.length).words
  /-- Where a word is open in front of a letter, there is a place before it, and that holds a
  letter too. -/
  behind : ∀ place c, LetterAt name place c → (Reading.upTo name place).reversed ≠ [] →
    0 < place ∧ ∃ before, name[place - 1]? = some before ∧ isSeparator before = false

theorem exists_letter_behind
    {name : Text}
    {place : Nat}
    (inside : place ≤ name.length)
    (isOpen : (Reading.upTo name place).reversed ≠ []) :
    0 < place ∧ ∃ before, name[place - 1]? = some before ∧ isSeparator before = false := by
  have reads := Reading.reads_upTo inside
  obtain ⟨before, more, reversed⟩ := List.exists_cons_of_ne_nil isOpen
  have looked := reads.behind isOpen
  have letters := reads.letters
  rw [reversed] at looked letters
  have kept : before ∈ (name.take place).filter fun c => !isSeparator c := by
    rw [← letters]
    simp
  cases place with
  | zero => exact absurd looked nofun
  | succ previous =>
      exact ⟨Nat.succ_pos previous, before, looked, by simpa using (List.mem_filter.mp kept).2⟩

/-- Every name is divided into its words at separators and where the case changes. -/
theorem divides (name : Text) : IsDivided name where
  nonempty word isWord := by
    rintro rfl
    exact nil_notMem_words name isWord
  solid word isWord c present := isSeparator_of_mem_words isWord present
  flatten := flatten_words name
  falls place c isLetter := isLetter.fallsInto
  changed place before c isBefore isLetter := by
    rw [isBefore.wordNumber_ne_iff isLetter, beginsWord_iff]
  separated first place second before separator c isBefore found separates isLetter behindFirst
      beforeSecond :=
    Nat.ne_of_lt (wordNumber_lt_of_separator isBefore found separates isLetter behindFirst
      beforeSecond)
  read := (Reading.words_upTo name).symm
  behind place c isLetter isOpen := exists_letter_behind (Nat.le_of_lt isLetter.lt_length) isOpen

example :
    words "XMLHttp-v2" = ["XML".toList, "Http".toList, "v2".toList] ∧
      [0, 1, 2, 3, 4, 5, 6, 8, 9].map (wordNumber "XMLHttp-v2") = [0, 0, 0, 1, 1, 1, 1, 2, 2] := by
  decide

end NameFormat
end StyleTypings
