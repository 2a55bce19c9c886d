import StyleTypings.Proofs.Classes.Words
import StyleTypings.Proofs.Text.Separators

/-!
# Names in camel case and names with hyphens

The words of a name with hyphens are those of the name in lower case. A name of ASCII characters
therefore has the same hyphens if they are put in again, and camel case makes the same of it
before and after.
-/

namespace StyleTypings

/-- Rows behind a code say nothing about it. -/
theorem CaseTable.image_filter_ble
    {shifts : List CodeShift}
    {expansions : List (Nat × List Nat)}
    {last : Nat}
    {c : Char}
    (upper : c.toNat ≤ last) :
    image (shifts.filter fun shift => shift.range.first.ble last)
        (expansions.filter fun row => row.1.ble last) c =
      image shifts expansions c := by
  have shifted : (shifts.filter fun shift => shift.range.first.ble last).find?
      (fun shift => shift.range.contains c.toNat) =
        shifts.find? fun shift => shift.range.contains c.toNat := by
    rw [List.find?_filter]
    refine congrArg shifts.find? (funext fun shift => ?_)
    cases inside : shift.range.contains c.toNat with
    | false => simp
    | true => simp [(CodeRange.bounds_of_contains inside).1.trans upper]
  have expanded : (expansions.filter fun row => row.1.ble last).find?
      (fun row => row.1 == c.toNat) = expansions.find? fun row => row.1 == c.toNat := by
    rw [List.find?_filter]
    refine congrArg expansions.find? (funext fun row => ?_)
    cases same : row.1 == c.toNat with
    | false => simp
    | true => simp [eq_of_beq same, upper]
  unfold image
  rw [shifted, expanded]

namespace Text

/-! ## ASCII letters -/

/-- A text of ASCII characters. -/
def IsAscii (text : Text) : Prop :=
  ∀ c ∈ text, c.toNat < 128

instance (text : Text) : Decidable (IsAscii text) :=
  List.decidableBAll _ text

theorem forall_ascii
    {P : Char → Prop}
    (all : ∀ code < 128, P (Char.ofNat code))
    {c : Char}
    (ascii : c.toNat < 128) :
    P c :=
  Char.ofNat_toNat c ▸ all c.toNat ascii

section Ascii

variable {c : Char}

/-- Of the rows for lower case only one has ASCII characters. -/
theorem lowerChar_of_ascii (ascii : c.toNat < 128) : lowerChar c = [c.toLower] := by
  have rows : CaseTable.lowerShifts.filter (fun shift => shift.range.first.ble 127) =
      [⟨⟨0x41, 0x5A, 1⟩, 0x61⟩] := by decide
  have noRows : CaseTable.lowerExpansions.filter (fun row => row.1.ble 127) = [] := by decide
  rw [lowerChar, ← CaseTable.image_filter_ble (Nat.le_of_lt_succ ascii), rows, noRows]
  exact forall_ascii (P := fun c => CaseTable.image [⟨⟨0x41, 0x5A, 1⟩, 0x61⟩] [] c = [c.toLower])
    (by decide) ascii

/-- Of the rows for upper case only one has ASCII characters. -/
theorem upperChar_of_ascii (ascii : c.toNat < 128) : upperChar c = [c.toUpper] := by
  have rows : CaseTable.upperShifts.filter (fun shift => shift.range.first.ble 127) =
      [⟨⟨0x61, 0x7A, 1⟩, 0x41⟩] := by decide
  have noRows : CaseTable.upperExpansions.filter (fun row => row.1.ble 127) = [] := by decide
  rw [upperChar, ← CaseTable.image_filter_ble (Nat.le_of_lt_succ ascii), rows, noRows]
  exact forall_ascii (P := fun c => CaseTable.image [⟨⟨0x61, 0x7A, 1⟩, 0x41⟩] [] c = [c.toUpper])
    (by decide) ascii

theorem toNat_toLower_lt (ascii : c.toNat < 128) : c.toLower.toNat < 128 :=
  forall_ascii (P := fun c => c.toLower.toNat < 128) (by decide) ascii

theorem toNat_toUpper_lt (ascii : c.toNat < 128) : c.toUpper.toNat < 128 :=
  forall_ascii (P := fun c => c.toUpper.toNat < 128) (by decide) ascii

theorem toLower_toLower_of_ascii (ascii : c.toNat < 128) : c.toLower.toLower = c.toLower :=
  forall_ascii (P := fun c => c.toLower.toLower = c.toLower) (by decide) ascii

theorem toUpper_toLower_of_ascii (ascii : c.toNat < 128) : c.toLower.toUpper = c.toUpper :=
  forall_ascii (P := fun c => c.toLower.toUpper = c.toUpper) (by decide) ascii

theorem toLower_toUpper_of_ascii (ascii : c.toNat < 128) : c.toUpper.toLower = c.toLower :=
  forall_ascii (P := fun c => c.toUpper.toLower = c.toLower) (by decide) ascii

theorem isUpper_toLower (ascii : c.toNat < 128) : isUpper c.toLower = false := by
  have rows : CaseTable.near CaseTable.uppercase 0 127 = [⟨0x41, 0x5A, 1⟩] := by decide
  have lowered := Nat.le_of_lt_succ (toNat_toLower_lt ascii)
  rw [isUpper, ← CaseTable.has_near (Nat.zero_le _) lowered, rows]
  exact forall_ascii (P := fun c => CaseTable.has [⟨0x41, 0x5A, 1⟩] c.toLower = false)
    (by decide) ascii

end Ascii

variable {text : Text}

theorem lowerAfter_of_isAscii (passed : Text) (ascii : IsAscii text) :
    lowerAfter passed text = asciiLower text := by
  induction text generalizing passed with
  | nil => rfl
  | cons c rest inductionHypothesis =>
      obtain ⟨first, later⟩ := List.forall_mem_cons.mp ascii
      have noSigma : c ≠ 'Σ' := by
        rintro rfl
        exact absurd first (by decide)
      rw [lowerAfter, if_neg noSigma, lowerChar_of_ascii first, inductionHypothesis _ later]
      rfl

theorem toLower_of_isAscii (ascii : IsAscii text) : toLower text = asciiLower text :=
  lowerAfter_of_isAscii [] ascii

theorem isAscii_asciiLower (ascii : IsAscii text) : IsAscii (asciiLower text) :=
  List.forall_mem_map.mpr fun c present => toNat_toLower_lt (ascii c present)

theorem asciiLower_asciiLower (ascii : IsAscii text) :
    asciiLower (asciiLower text) = asciiLower text := by
  unfold asciiLower
  rw [List.map_map]
  exact List.map_congr_left fun c present => toLower_toLower_of_ascii (ascii c present)

end Text

namespace NameFormat

open Text

/-! ## Words of ASCII names -/

theorem isAscii_of_mem_words
    {name word : Text}
    (ascii : IsAscii name)
    (isWord : word ∈ words name) :
    IsAscii word := by
  intro c present
  have kept := List.mem_flatten_of_mem isWord present
  rw [flatten_words] at kept
  exact ascii c (List.mem_filter.mp kept).1

theorem capitalize_of_isAscii
    {c : Char}
    {rest : Text}
    (ascii : IsAscii (c :: rest)) :
    capitalize (c :: rest) = c.toUpper :: asciiLower rest := by
  obtain ⟨first, later⟩ := List.forall_mem_cons.mp ascii
  rw [capitalize, upperChar_of_ascii first, toLower_of_isAscii later]
  rfl

theorem isAscii_capitalize {word : Text} (ascii : IsAscii word) : IsAscii (capitalize word) := by
  cases word with
  | nil => exact ascii
  | cons c rest =>
      obtain ⟨first, later⟩ := List.forall_mem_cons.mp ascii
      rw [capitalize_of_isAscii ascii]
      exact List.forall_mem_cons.mpr ⟨toNat_toUpper_lt first, isAscii_asciiLower later⟩

/-- A word is capitalized alike whatever the case of its letters. -/
theorem capitalize_asciiLower {word : Text} (ascii : IsAscii word) :
    capitalize (asciiLower word) = capitalize word := by
  cases word with
  | nil => rfl
  | cons c rest =>
      obtain ⟨first, later⟩ := List.forall_mem_cons.mp ascii
      rw [capitalize_of_isAscii ascii]
      refine (capitalize_of_isAscii (isAscii_asciiLower ascii)).trans ?_
      rw [toUpper_toLower_of_ascii first]
      exact congrArg _ (asciiLower_asciiLower later)

theorem asciiLower_capitalize {word : Text} (ascii : IsAscii word) :
    asciiLower (capitalize word) = asciiLower word := by
  cases word with
  | nil => rfl
  | cons c rest =>
      obtain ⟨first, later⟩ := List.forall_mem_cons.mp ascii
      rw [capitalize_of_isAscii ascii]
      unfold asciiLower
      rw [List.map_cons, List.map_cons, toLower_toUpper_of_ascii first]
      exact congrArg _ (asciiLower_asciiLower later)

/-! ## Words with hyphens between them -/

/-- A word with neither separators nor letters in upper case. -/
structure IsLowerWord (word : Text) : Prop where
  nonempty : word ≠ []
  plain : ∀ c ∈ word, isSeparator c = false ∧ isUpper c = false

/-- Without separators and letters in upper case no new word begins. -/
theorem wordsFrom_append
    {word : Text}
    (plain : ∀ c ∈ word, isSeparator c = false ∧ isUpper c = false)
    (reversed rest : Text) :
    wordsFrom reversed (word ++ rest) = wordsFrom (word.reverse ++ reversed) rest := by
  induction word generalizing reversed with
  | nil => rfl
  | cons c others inductionHypothesis =>
      obtain ⟨⟨noSeparator, noUpper⟩, later⟩ := List.forall_mem_cons.mp plain
      have continues (previous next : Option Char) : beginsWord previous c next = false := by
        cases previous with
        | none => rfl
        | some before => simp [beginsWord, noUpper]
      rw [List.cons_append, wordsFrom, noSeparator, continues, if_neg nofun, if_neg nofun,
        inductionHypothesis later]
      simp

theorem closeWord_reverse {word : Text} (nonempty : word ≠ []) :
    closeWord word.reverse = [word] := by
  simp [closeWord, nonempty]

/-- Words joined with hyphens are found again. -/
theorem words_join {parts : List Text} (areWords : ∀ part ∈ parts, IsLowerWord part) :
    words (join ['-'] parts) = parts := by
  induction parts with
  | nil => rfl
  | cons first others inductionHypothesis =>
      obtain ⟨isWord, later⟩ := List.forall_mem_cons.mp areWords
      have closed := closeWord_reverse isWord.nonempty
      cases others with
      | nil =>
          have read := wordsFrom_append isWord.plain [] []
          rw [List.append_nil, List.append_nil, wordsFrom, closed] at read
          simpa [join, words] using read
      | cons second more =>
          rw [join_cons_cons, words, wordsFrom_append isWord.plain, List.append_nil,
            List.singleton_append, wordsFrom, if_pos (by decide), closed]
          exact congrArg _ (inductionHypothesis later)

theorem isLowerWord_of_mem_words
    {name word : Text}
    (ascii : IsAscii name)
    (isWord : word ∈ words name) :
    IsLowerWord (toLower word) := by
  have letters := isAscii_of_mem_words ascii isWord
  have nonempty : word ≠ [] := fun isNil => nil_notMem_words name (isNil ▸ isWord)
  refine ⟨?_, fun c present => ⟨isSeparator_of_mem_toLower isWord present, ?_⟩⟩
  · rw [toLower_of_isAscii letters]
    exact mt List.map_eq_nil_iff.mp nonempty
  · rw [toLower_of_isAscii letters] at present
    obtain ⟨d, among, rfl⟩ := List.mem_map.mp present
    exact isUpper_toLower (letters d among)

/-- The words of a name with hyphens are the words of the name in lower case. -/
theorem words_kebabCase {name : Text} (ascii : IsAscii name) :
    words (kebabCase name) = (words name).map toLower :=
  words_join (List.forall_mem_map.mpr fun _ => isLowerWord_of_mem_words ascii)

/-! ## One format after another -/

theorem toLower_toLower {text : Text} (ascii : IsAscii text) :
    toLower (toLower text) = toLower text := by
  rw [toLower_of_isAscii ascii, toLower_of_isAscii (isAscii_asciiLower ascii),
    asciiLower_asciiLower ascii]

/-- Hyphens are put in once. -/
theorem kebabCase_kebabCase {name : Text} (ascii : IsAscii name) :
    kebabCase (kebabCase name) = kebabCase name := by
  have lowered : ((words name).map toLower).map toLower = (words name).map toLower := by
    rw [List.map_map]
    exact List.map_congr_left fun word isWord =>
      toLower_toLower (isAscii_of_mem_words ascii isWord)
  rw [kebabCase, words_kebabCase ascii, lowered]
  rfl

/-- Hyphens and lower case hide nothing from camel case. -/
theorem camelCase_kebabCase {name : Text} (ascii : IsAscii name) :
    camelCase (kebabCase name) = camelCase name := by
  have letters := @isAscii_of_mem_words name
  unfold camelCase
  rw [words_kebabCase ascii]
  cases isWords : words name with
  | nil => rfl
  | cons first others =>
      rw [isWords] at letters
      obtain ⟨isFirst, later⟩ := List.forall_mem_cons.mp fun word => @letters word ascii
      simp only [List.map_cons, List.flatMap_map]
      rw [toLower_toLower isFirst]
      refine congrArg _ (List.flatMap_congr fun word among => ?_)
      rw [toLower_of_isAscii (later word among), capitalize_asciiLower (later word among)]

/-! ## Letters -/

/-- Without the hyphens between them the parts run together. -/
theorem filter_join_hyphen {parts : List Text} (without : ∀ part ∈ parts, '-' ∉ part) :
    (join ['-'] parts).filter (· ≠ '-') = parts.flatten := by
  induction parts with
  | nil => rfl
  | cons first others inductionHypothesis =>
      obtain ⟨absent, later⟩ := List.forall_mem_cons.mp without
      have kept : first.filter (· ≠ '-') = first := by
        refine List.filter_eq_self.mpr fun c present => ?_
        simpa using ne_of_mem_of_not_mem present absent
      cases others with
      | nil => simpa [join] using kept
      | cons second more =>
          rw [join_cons_cons, List.filter_append, List.filter_append, kept,
            inductionHypothesis later]
          rfl

theorem isAscii_filter {name : Text} (ascii : IsAscii name) :
    IsAscii (name.filter fun c => !isSeparator c) := fun c present =>
  ascii c (List.mem_filter.mp present).1

/-- Without its hyphens a name has the letters of the name in lower case. -/
theorem filter_kebabCase {name : Text} (ascii : IsAscii name) :
    (kebabCase name).filter (· ≠ '-') = toLower (name.filter fun c => !isSeparator c) := by
  have without : ∀ part ∈ (words name).map toLower, '-' ∉ part :=
    List.forall_mem_map.mpr fun word isWord present =>
      absurd (isSeparator_of_mem_toLower isWord present) (by decide)
  have lowered : (words name).map toLower = (words name).map asciiLower :=
    List.map_congr_left fun word isWord => toLower_of_isAscii (isAscii_of_mem_words ascii isWord)
  rw [kebabCase, filter_join_hyphen without, lowered, toLower_of_isAscii (isAscii_filter ascii),
    ← flatten_words]
  exact List.map_flatten.symm

theorem isAscii_camelCase {name : Text} (ascii : IsAscii name) : IsAscii (camelCase name) := by
  have letters := fun word => @isAscii_of_mem_words name word ascii
  unfold camelCase
  cases isWords : words name with
  | nil => exact nofun
  | cons first others =>
      rw [isWords] at letters
      obtain ⟨isFirst, later⟩ := List.forall_mem_cons.mp letters
      simp only [toLower_of_isAscii isFirst]
      refine List.forall_mem_append.mpr ⟨isAscii_asciiLower isFirst, fun c present => ?_⟩
      obtain ⟨word, among, inside⟩ := List.mem_flatMap.mp present
      exact isAscii_capitalize (later word among) c inside

/-- In lower case a name in camel case has the letters of the name in lower case. -/
theorem toLower_camelCase {name : Text} (ascii : IsAscii name) :
    toLower (camelCase name) = toLower (name.filter fun c => !isSeparator c) := by
  have letters := fun word => @isAscii_of_mem_words name word ascii
  rw [toLower_of_isAscii (isAscii_camelCase ascii), toLower_of_isAscii (isAscii_filter ascii),
    ← flatten_words]
  unfold camelCase
  cases isWords : words name with
  | nil => rfl
  | cons first others =>
      rw [isWords] at letters
      obtain ⟨isFirst, later⟩ := List.forall_mem_cons.mp letters
      have lowered : others.flatMap (fun word => asciiLower (capitalize word)) =
          others.flatMap asciiLower :=
        List.flatMap_congr fun word among => asciiLower_capitalize (later word among)
      calc asciiLower (toLower first ++ others.flatMap capitalize)
          = asciiLower (asciiLower first) ++
              others.flatMap fun word => asciiLower (capitalize word) := by
            rw [toLower_of_isAscii isFirst]
            simp [asciiLower, List.map_flatMap]
        _ = asciiLower first ++ others.flatMap asciiLower := by
            rw [asciiLower_asciiLower isFirst, lowered]
        _ = asciiLower (first :: others).flatten := by
            unfold asciiLower
            rw [List.flatten_cons, List.map_append, List.map_flatten, List.flatMap_def]

/-! ## The form of a name with hyphens -/

/-- A text in lower case with single hyphens, and no other separators, between its words. -/
structure IsHyphenated (text : Text) : Prop where
  lower : ∀ c ∈ text, isUpper c = false
  solid : ∀ c ∈ text, c ≠ '_' ∧ c ≠ '.' ∧ isBlank c = false
  first : text.head? ≠ some '-'
  last : text.getLast? ≠ some '-'
  single : ¬ "--".toList <:+: text

theorem IsLowerWord.hyphen_notMem {word : Text} (isWord : IsLowerWord word) : '-' ∉ word :=
  fun present => absurd (isWord.plain _ present).1 (by decide)

/-- Joined words begin as the first of them does. -/
theorem head?_join_ne_hyphen
    {first : Text}
    (isWord : IsLowerWord first)
    (others : List Text) :
    (join ['-'] (first :: others)).head? ≠ some '-' := by
  have absent : first.head? ≠ some '-' := fun isHead =>
    isWord.hyphen_notMem (List.mem_of_head? isHead)
  cases others with
  | nil => rwa [join, List.intercalate_singleton]
  | cons second more => rwa [join_cons_cons, List.head?_append_of_ne_nil _ isWord.nonempty]

/-- Between words that are not empty no two hyphens follow each other. -/
theorem not_infix_join {parts : List Text} (areWords : ∀ part ∈ parts, IsLowerWord part) :
    ¬ "--".toList <:+: join ['-'] parts := by
  induction parts with
  | nil => decide
  | cons first others inductionHypothesis =>
      obtain ⟨isWord, later⟩ := List.forall_mem_cons.mp areWords
      have skipped (back : Text) : "--".toList <:+: first ++ back ↔ "--".toList <:+: back :=
        infix_append_iff_of_notMem isWord.hyphen_notMem back
      cases others with
      | nil =>
          have alone := skipped []
          rw [List.append_nil] at alone
          rw [join, List.intercalate_singleton, alone]
          decide
      | cons second more =>
          have absent := head?_join_ne_hyphen (later second List.mem_cons_self) more
          rw [join_cons_cons, skipped, List.singleton_append, List.infix_cons_iff, not_or]
          refine ⟨fun begins => absent ?_, inductionHypothesis later⟩
          obtain ⟨back, split⟩ := (List.cons_prefix_cons.mp begins).2
          rw [← split]
          rfl

/-- Words in lower case are hyphenated by joining them. -/
theorem isHyphenated_join {parts : List Text} (areWords : ∀ part ∈ parts, IsLowerWord part) :
    IsHyphenated (join ['-'] parts) := by
  have letters {c : Char} (present : c ∈ join ['-'] parts) :
      c = '-' ∨ isSeparator c = false ∧ isUpper c = false := by
    rcases mem_join present with separates | ⟨part, among, inside⟩
    · exact .inl (List.mem_singleton.mp separates)
    · exact .inr ((areWords part among).plain c inside)
  refine ⟨fun c present => ?_, fun c present => ?_, ?_, ?_, not_infix_join areWords⟩
  · rcases letters present with rfl | plain
    · decide
    · exact plain.2
  · rcases letters present with rfl | plain
    · decide
    · simp only [isSeparator, Bool.or_eq_false_iff, beq_eq_false_iff_ne, and_assoc] at plain
      exact ⟨plain.2.1, plain.2.2.1, plain.2.2.2.1⟩
  · cases parts with
    | nil => decide
    | cons first others => exact head?_join_ne_hyphen (areWords first List.mem_cons_self) others
  · rcases List.eq_nil_or_concat parts with rfl | ⟨front, last, rfl⟩
    · decide
    · rw [List.concat_eq_append] at areWords ⊢
      have isWord := areWords last (List.mem_append_right front List.mem_cons_self)
      rw [join_concat, List.getLast?_append_of_ne_nil _ isWord.nonempty]
      exact fun isLast => isWord.hyphen_notMem (List.mem_of_getLast? isLast)

theorem isHyphenated_kebabCase {name : Text} (ascii : IsAscii name) :
    IsHyphenated (kebabCase name) :=
  isHyphenated_join (List.forall_mem_map.mpr fun _ => isLowerWord_of_mem_words ascii)

/-- On a name of ASCII characters the formats agree: hyphens are put in once, camel case makes the
same of the name with hyphens as of the name, and both have the letters of the name in lower case,
where between the letters of the one stand single hyphens only. -/
theorem formats_agree {name : Text} (ascii : IsAscii name) :
    kebab.apply (kebab.apply name) = kebab.apply name ∧
      camel.apply (kebab.apply name) = camel.apply name ∧
      IsHyphenated (kebab.apply name) ∧
      (kebab.apply name).filter (· ≠ '-') = toLower (camel.apply name) ∧
      toLower (camel.apply name) = toLower (name.filter fun c => !isSeparator c) :=
  ⟨kebabCase_kebabCase ascii, camelCase_kebabCase ascii, isHyphenated_kebabCase ascii,
    (filter_kebabCase ascii).trans (toLower_camelCase ascii).symm, toLower_camelCase ascii⟩

theorem formats_agree_acronym :
    IsAscii "-XMLHttp--request_v2 A" ∧
      kebab.apply "-XMLHttp--request_v2 A" = "xml-http-request-v2-a".toList ∧
      kebab.apply "xml-http-request-v2-a" = "xml-http-request-v2-a".toList ∧
      camel.apply "xml-http-request-v2-a" = camel.apply "-XMLHttp--request_v2 A" ∧
      IsHyphenated "xml-http-request-v2-a" ∧
      "xml-http-request-v2-a".toList.filter (· ≠ '-') =
        toLower (camel.apply "-XMLHttp--request_v2 A") ∧
      toLower (camel.apply "-XMLHttp--request_v2 A") = "xmlhttprequestv2a".toList := by
  have ascii : IsAscii "-XMLHttp--request_v2 A" := by decide
  have hyphenated : kebab.apply "-XMLHttp--request_v2 A" = "xml-http-request-v2-a".toList := by
    decide
  have letters : ("-XMLHttp--request_v2 A".toList.filter fun c => !isSeparator c) =
      "XMLHttprequestv2A".toList := by decide
  have lowered : toLower "XMLHttprequestv2A" = "xmlhttprequestv2a".toList := by decide
  have agree := formats_agree ascii
  rw [hyphenated, letters, lowered] at agree
  exact ⟨ascii, hyphenated, agree⟩

end NameFormat
end StyleTypings
