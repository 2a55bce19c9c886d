import StyleTypings.Classes.NameFormat
import StyleTypings.Proofs.Text.Identifier
import StyleTypings.Proofs.Text.Joining

/-!
# Words of names

The words of a name are what is left of it without its separators. Camel case runs them
together, and hyphens stand between them otherwise, so the letters of a declared name are
those of the class name in another case. Which characters may stand in an identifier, and
which may begin one, is the same in lower and in upper case.
-/

namespace StyleTypings
namespace NameFormat

open Text Identifier

/-! ## Words -/

theorem flatten_closeWord (reversed : Text) :
    (closeWord reversed).flatten = reversed.reverse := by
  cases reversed with
  | nil => rfl
  | cons c rest => exact List.append_nil _

theorem flatten_wordsFrom (reversed text : Text) :
    (wordsFrom reversed text).flatten =
      reversed.reverse ++ text.filter fun c => !isSeparator c := by
  fun_induction wordsFrom reversed text with
  | case1 reversed => rw [flatten_closeWord, List.filter_nil, List.append_nil]
  | case2 reversed c rest separator inductionHypothesis =>
      rw [List.flatten_append, flatten_closeWord, inductionHypothesis,
        List.filter_cons_of_neg (by simp [separator])]
      rfl
  | case3 reversed c rest noSeparator begins inductionHypothesis =>
      rw [List.flatten_append, flatten_closeWord, inductionHypothesis,
        List.filter_cons_of_pos (by simpa using noSeparator)]
      rfl
  | case4 reversed c rest noSeparator continues inductionHypothesis =>
      rw [inductionHypothesis, List.filter_cons_of_pos (by simpa using noSeparator),
        List.reverse_cons, List.append_assoc]
      rfl

/-- The words are the name without its separators. -/
theorem flatten_words (name : Text) :
    (words name).flatten = name.filter fun c => !isSeparator c :=
  flatten_wordsFrom [] name

theorem nil_notMem_wordsFrom (reversed text : Text) : [] ∉ wordsFrom reversed text := by
  have closed (reversed : Text) : [] ∉ closeWord reversed := by
    cases reversed with
    | nil => exact nofun
    | cons c rest => simp [closeWord]
  fun_induction wordsFrom reversed text with
  | case1 reversed => exact closed reversed
  | case2 reversed c rest _ inductionHypothesis
  | case3 reversed c rest _ _ inductionHypothesis =>
      exact fun present => (List.mem_append.mp present).elim (closed reversed)
        inductionHypothesis
  | case4 _ _ _ _ _ inductionHypothesis => exact inductionHypothesis

theorem nil_notMem_words (name : Text) : [] ∉ words name :=
  nil_notMem_wordsFrom [] name

theorem ne_nil_of_words
    {name first : Text}
    {others : List Text}
    (isWords : words name = first :: others) :
    first ≠ [] := by
  rintro rfl
  exact nil_notMem_words name (isWords ▸ List.mem_cons_self)

/-! ## Tests that do not depend on case -/

/-- A test of characters that the full case images of a character pass together just if the
character does. -/
structure KeptByCase (test : Char → Bool) : Prop where
  lower (c : Char) : (lowerChar c).all test = test c
  upper (c : Char) : (upperChar c).all test = test c
  sigmas : test 'σ' = test 'Σ' ∧ test 'ς' = test 'Σ'

namespace KeptByCase

variable {test : Char → Bool}

theorem all_lowerAfter (kept : KeptByCase test) (passed text : Text) :
    (lowerAfter passed text).all test = text.all test := by
  induction text generalizing passed with
  | nil => rfl
  | cons c rest inductionHypothesis =>
      unfold lowerAfter
      rw [List.all_append, List.all_cons, inductionHypothesis]
      congr 1
      split
      case isTrue isSigma =>
        subst isSigma
        split <;> simp [kept.sigmas]
      case isFalse => exact kept.lower c

theorem all_toLower (kept : KeptByCase test) (text : Text) :
    (toLower text).all test = text.all test :=
  kept.all_lowerAfter [] text

theorem all_capitalize (kept : KeptByCase test) (word : Text) :
    (capitalize word).all test = word.all test := by
  cases word with
  | nil => rfl
  | cons c rest =>
      unfold capitalize
      rw [List.all_append, List.all_cons, kept.upper, kept.all_toLower]

/-- A name in camel case passes just if the name without its separators does. -/
theorem all_camelCase (kept : KeptByCase test) (name : Text) :
    (camelCase name).all test = (name.filter fun c => !isSeparator c).all test := by
  rw [← flatten_words]
  unfold camelCase
  cases words name with
  | nil => rfl
  | cons first others =>
      have capitals : (others.flatMap capitalize).all test = others.flatten.all test := by
        rw [List.all_flatMap, List.all_flatten]
        exact congrArg others.all (funext kept.all_capitalize)
      rw [List.flatten_cons, List.all_append, List.all_append, kept.all_toLower, capitals]

end KeptByCase

/-! ## Identifiers in another case -/

theorem keptByCase_isPart : KeptByCase isPart :=
  ⟨all_isPart_lowerChar, all_isPart_upperChar, by decide⟩

theorem lowerChar_ne_nil (c : Char) : lowerChar c ≠ [] := by
  have nonempty : ∀ row ∈ CaseTable.lowerExpansions, row.2 ≠ [] := by decide
  unfold lowerChar
  rcases @CaseTable.image_cases CaseTable.lowerShifts CaseTable.lowerExpansions c with
    ⟨row, listed, -, isImage⟩ | ⟨shift, -, -, isImage⟩ | isImage
  · rw [isImage]
    exact fun isNil => nonempty row listed (List.map_eq_nil_iff.mp isNil)
  · rw [isImage]
    exact List.cons_ne_nil _ _
  · rw [isImage]
    exact List.cons_ne_nil _ _

/-- A text in lower case begins an identifier just if the text does, whatever follows. -/
theorem any_isStart_toLower_append
    {word : Text}
    (nonempty : word ≠ [])
    (more others : Text) :
    (toLower word ++ more).head?.any isStart = (word ++ others).head?.any isStart := by
  have sigmas : isStart 'Σ' = true ∧ isStart 'σ' = true := by decide
  obtain ⟨c, rest, rfl⟩ := List.exists_cons_of_ne_nil nonempty
  unfold toLower lowerAfter
  rw [List.append_assoc]
  split
  case isTrue isSigma =>
    subst isSigma
    simp [startsCased, sigmas]
  case isFalse =>
    rw [List.head?_append_of_ne_nil _ (lowerChar_ne_nil c)]
    exact any_isStart_lowerChar c

/-- Words run together are an identifier just if they are so with the first in lower case
and the others capitalized. -/
theorem isIdentifier_run
    {first : Text}
    (nonempty : first ≠ [])
    (others : List Text) :
    IsIdentifier (toLower first ++ others.flatMap capitalize) ↔
      IsIdentifier (first ++ others.flatten) := by
  have capitals : (others.flatMap capitalize).all isPart = others.flatten.all isPart := by
    rw [List.all_flatMap, List.all_flatten]
    exact congrArg others.all (funext keptByCase_isPart.all_capitalize)
  have lowered : (toLower first).all isPart = first.all isPart :=
    keptByCase_isPart.all_toLower first
  rw [isIdentifier_iff, isIdentifier_iff,
    any_isStart_toLower_append nonempty _ others.flatten, List.all_append, List.all_append,
    capitals, lowered]

/-- A name in camel case is an identifier just if its words run together are. -/
theorem isIdentifier_camelCase (name : Text) :
    IsIdentifier (camelCase name) ↔ IsIdentifier (name.filter fun c => !isSeparator c) := by
  rw [← flatten_words]
  unfold camelCase
  cases isWords : words name with
  | nil => rfl
  | cons first others =>
      exact isIdentifier_run (ne_nil_of_words isWords) others

/-- A name with hyphens between its words is an identifier just if its words run together
are, where it has no hyphen. -/
theorem isIdentifier_kebabCase
    {name : Text}
    (noHyphen : '-' ∉ kebabCase name) :
    IsIdentifier (kebabCase name) ↔ IsIdentifier (name.filter fun c => !isSeparator c) := by
  rw [← flatten_words]
  unfold kebabCase at noHyphen ⊢
  match isWords : words name with
  | [] => rfl
  | [word] =>
      have single := isIdentifier_run (ne_nil_of_words isWords) []
      rw [List.flatMap_nil, List.append_nil] at single
      simpa [join] using single
  | first :: second :: others =>
      rw [isWords, List.map_cons, List.map_cons, join_cons_cons] at noHyphen
      exact absurd (List.mem_append_right _ List.mem_cons_self) noHyphen

/-! ## Declared names -/

/-- The letters of a class name that a format keeps, up to their case: all but the
separators where the name is split into words. -/
def letters (format : NameFormat) (name : Text) : Text :=
  match format with
  | .camel | .kebab | .param => name.filter fun c => !isSeparator c
  | .dashes => if name.contains '-' then name.filter fun c => !isSeparator c else name
  | .none => name

/-- A declared name without a hyphen is an identifier just if the letters that are kept of
the class name are. -/
theorem isIdentifier_apply_iff
    {format : NameFormat}
    {name : Text}
    (noHyphen : '-' ∉ format.apply name) :
    IsIdentifier (format.apply name) ↔ IsIdentifier (format.letters name) := by
  cases format with
  | camel => exact isIdentifier_camelCase name
  | kebab | param => exact isIdentifier_kebabCase noHyphen
  | dashes =>
      simp only [apply, letters]
      split
      case isTrue => exact isIdentifier_camelCase name
      case isFalse => rfl
  | none => rfl

/-! ## Separators -/

/-- The codes of the separators. -/
def separatorCodes : List CodeRange :=
  [ ⟨9, 13, 1⟩, ⟨0x20, 0x20, 1⟩, ⟨0x2D, 0x2E, 1⟩, ⟨0x5F, 0x5F, 1⟩, ⟨0x85, 0x85, 1⟩,
    ⟨0xA0, 0xA0, 1⟩, ⟨0x1680, 0x1680, 1⟩, ⟨0x2000, 0x200A, 1⟩, ⟨0x2028, 0x2029, 1⟩,
    ⟨0x202F, 0x202F, 1⟩, ⟨0x205F, 0x205F, 1⟩, ⟨0x3000, 0x3000, 1⟩ ]

theorem isSeparator_eq_has (c : Char) : isSeparator c = CaseTable.has separatorCodes c := by
  have signs : (c = '-' ↔ c.toNat = 0x2D) ∧ (c = '_' ↔ c.toNat = 0x5F) ∧
      (c = '.' ↔ c.toNat = 0x2E) :=
    ⟨Char.toNat_inj.symm, Char.toNat_inj.symm, Char.toNat_inj.symm⟩
  rw [Bool.eq_iff_iff]
  simp only [isSeparator, isBlank, CaseTable.has, separatorCodes, CodeRange.contains, signs,
    Bool.or_eq_true, Bool.and_eq_true, beq_iff_eq, decide_eq_true_eq, List.any_cons,
    List.any_nil, Nat.mod_one, and_true, Bool.false_eq_true, or_false]
  omega

/-- No separator has another case, and none is the other case of a character. -/
theorem keptByCase_isSeparator : KeptByCase fun c => !isSeparator c := by
  have table (text : Text) :
      (text.all fun c => !isSeparator c) = !text.any (CaseTable.has separatorCodes) := by
    simp [isSeparator_eq_has, List.all_eq_not_any_not]
  refine ⟨fun c => ?_, fun c => ?_, by decide⟩
  · rw [table, isSeparator_eq_has]
    exact congrArg not (CaseTable.test_image (fun text => text.any (CaseTable.has separatorCodes))
      (fun c => Bool.or_false _) (by decide +kernel) (by decide +kernel) c)
  · rw [table, isSeparator_eq_has]
    exact congrArg not (CaseTable.test_image (fun text => text.any (CaseTable.has separatorCodes))
      (fun c => Bool.or_false _) (by decide +kernel) (by decide +kernel) c)

theorem isSeparator_of_mem_words
    {name word : Text}
    {c : Char}
    (isWord : word ∈ words name)
    (present : c ∈ word) :
    isSeparator c = false := by
  have kept := List.mem_flatten_of_mem isWord present
  rw [flatten_words] at kept
  simpa using (List.mem_filter.mp kept).2

/-- A name in camel case has no separator. -/
theorem isSeparator_of_mem_camelCase {name : Text} {c : Char} (present : c ∈ camelCase name) :
    isSeparator c = false := by
  have none : (name.filter fun c => !isSeparator c).all (fun c => !isSeparator c) = true := by
    simp [List.all_filter]
  rw [← keptByCase_isSeparator.all_camelCase] at none
  simpa using List.all_eq_true.mp none c present

/-- A word in lower case has no separator. -/
theorem isSeparator_of_mem_toLower
    {name word : Text}
    {c : Char}
    (isWord : word ∈ words name)
    (present : c ∈ toLower word) :
    isSeparator c = false := by
  have none : word.all (fun c => !isSeparator c) = true := by
    simpa using fun c => isSeparator_of_mem_words isWord
  rw [← keptByCase_isSeparator.all_toLower] at none
  simpa using List.all_eq_true.mp none c present

/-- With hyphens between its words a name has no other separator. -/
theorem isSeparator_of_mem_kebabCase
    {name : Text}
    {c : Char}
    (present : c ∈ kebabCase name)
    (other : c ≠ '-') :
    isSeparator c = false := by
  rcases mem_join present with separates | ⟨part, among, inside⟩
  · exact absurd (List.mem_singleton.mp separates) other
  · obtain ⟨word, isWord, rfl⟩ := List.mem_map.mp among
    exact isSeparator_of_mem_toLower isWord inside

/-! ## Line feeds -/

/-- A line feed is a separator. -/
theorem lineFeed_notMem_filter (name : Text) :
    '\n' ∉ name.filter fun c => !isSeparator c := by
  intro kept
  exact absurd (List.mem_filter.mp kept).2 (by decide)

theorem lineFeed_notMem_camelCase (name : Text) : '\n' ∉ camelCase name := fun present =>
  absurd (isSeparator_of_mem_camelCase present) (by decide)

theorem lineFeed_notMem_kebabCase (name : Text) : '\n' ∉ kebabCase name := fun present =>
  absurd (isSeparator_of_mem_kebabCase present (by decide)) (by decide)

/-- A declared name has a line feed just if the letters that are kept of the class name
have one. -/
theorem lineFeed_mem_apply_iff {format : NameFormat} {name : Text} :
    '\n' ∈ format.apply name ↔ '\n' ∈ format.letters name := by
  have dropped := lineFeed_notMem_filter name
  cases format with
  | camel => exact iff_of_false (lineFeed_notMem_camelCase name) dropped
  | kebab | param => exact iff_of_false (lineFeed_notMem_kebabCase name) dropped
  | dashes =>
      simp only [apply, letters]
      split
      case isTrue => exact iff_of_false (lineFeed_notMem_camelCase name) dropped
      case isFalse => rfl
  | none => rfl

end NameFormat
end StyleTypings
