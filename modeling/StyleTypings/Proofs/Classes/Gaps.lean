import StyleTypings.Proofs.Classes.Writing

/-!
# Selectors with gaps

Where a selector has a gap, that is a slash and characters that the scanner passes over,
the scanner finds the same classes if there are spaces instead. A gap ends a name as
spaces do, and strings, attribute tests and pseudo-classes go on over both. Only an escape
may take in one of the spaces, so there have to be two of them.
-/

namespace StyleTypings

namespace Selector

/-! ## Texts with gaps -/

/-- The characters that the scanner of selectors goes by, besides those of names. -/
def signs : List Char :=
  ['.', '#', '[', ']', '"', '\'', ':', '(', ')', ',', '\\']

/-- A character that the scanner passes over outside of names. -/
def IsInert (c : Char) : Prop :=
  c ∉ signs

instance (c : Char) : Decidable (IsInert c) :=
  inferInstanceAs (Decidable (c ∉ signs))

/-- A text with at least two spaces for each of some gaps, which begin with a slash and
are inert. A backslash goes with the character behind it. -/
inductive Clears : Text → Text → Prop
  | nil : Clears [] []
  | keep
      {c : Char}
      {text other : Text}
      (plain : c ≠ '\\')
      (later : Clears text other) :
      Clears (c :: text) (c :: other)
  | escape
      (c : Char)
      {text other : Text}
      (later : Clears text other) :
      Clears ('\\' :: c :: text) ('\\' :: c :: other)
  | lone : Clears ['\\'] ['\\']
  | gap
      {body text other : Text}
      (count : Nat)
      (inert : ∀ c ∈ body, IsInert c)
      (later : Clears text other) :
      Clears ('/' :: body ++ text) (List.replicate (count + 2) ' ' ++ other)

/-- What is behind a name in such texts: perhaps a gap of which one space has been taken. -/
inductive Parted : Text → Text → Prop
  | clears
      {text other : Text}
      (clears : Clears text other) :
      Parted text other
  | gap
      {body text other : Text}
      (count : Nat)
      (inert : ∀ c ∈ body, IsInert c)
      (later : Clears text other) :
      Parted ('/' :: body ++ text) (List.replicate (count + 1) ' ' ++ other)

/-! ## What is passed over -/

theorem ne_of_isInert
    {c sign : Char}
    (inert : IsInert c)
    (isSign : sign ∈ signs) :
    c ≠ sign := by
  rintro rfl
  exact inert isSign

theorem isInert_slash
    {body : Text}
    (inert : ∀ c ∈ body, IsInert c) :
    ∀ c ∈ '/' :: body, IsInert c :=
  List.forall_mem_cons.mpr ⟨by decide, inert⟩

theorem isInert_replicate (count : Nat) : ∀ c ∈ List.replicate count ' ', IsInert c := by
  intro c present
  rw [List.eq_of_mem_replicate present]
  decide

theorem classesFrom_inert
    {front : Text}
    (inert : ∀ c ∈ front, IsInert c)
    (scopes : Scopes)
    (rest : Text) :
    classesFrom scopes (front ++ rest) = classesFrom scopes rest := by
  induction front with
  | nil => rfl
  | cons c others inductionHypothesis =>
      have other {sign : Char} (isSign : sign ∈ signs) : c ≠ sign :=
        ne_of_isInert (inert c List.mem_cons_self) isSign
      rw [List.cons_append, classesFrom, if_neg (other (by decide)), if_neg (other (by decide)),
        if_neg (other (by decide)), if_neg (not_or.mpr ⟨other (by decide), other (by decide)⟩),
        if_neg (other (by decide)), if_neg (other (by decide)), if_neg (other (by decide)),
        if_neg (other (by decide)), if_neg (other (by decide))]
      exact inductionHypothesis fun later present => inert later (List.mem_cons_of_mem c present)

theorem afterString_cons
    {c : Char}
    (plain : c ≠ '\\')
    (quote : Char)
    (rest : Text) :
    afterString quote (c :: rest) = if c = quote then rest else afterString quote rest := by
  rw [afterString]
  · exact fun same _ => plain same
  · exact fun _ _ same _ => plain same

theorem afterString_inert
    {quote : Char}
    {front : Text}
    (isQuote : quote ∈ signs)
    (inert : ∀ c ∈ front, IsInert c)
    (rest : Text) :
    afterString quote (front ++ rest) = afterString quote rest := by
  induction front with
  | nil => rfl
  | cons c others inductionHypothesis =>
      have isInert := inert c List.mem_cons_self
      rw [List.cons_append, afterString_cons (ne_of_isInert isInert (by decide)),
        if_neg (ne_of_isInert isInert isQuote)]
      exact inductionHypothesis fun later present => inert later (List.mem_cons_of_mem c present)

theorem afterAttribute_backslash (rest : Text) :
    afterAttribute ('\\' :: rest) = afterAttribute (rest.drop 1) := by
  rw [afterAttribute, if_neg (by decide), if_pos rfl]

theorem afterAttribute_inert
    {front : Text}
    (inert : ∀ c ∈ front, IsInert c)
    (rest : Text) :
    afterAttribute (front ++ rest) = afterAttribute rest := by
  induction front with
  | nil => rfl
  | cons c others inductionHypothesis =>
      have other {sign : Char} (isSign : sign ∈ signs) : c ≠ sign :=
        ne_of_isInert (inert c List.mem_cons_self) isSign
      rw [List.cons_append, afterAttribute,
        if_neg (not_or.mpr ⟨other (by decide), other (by decide)⟩), if_neg (other (by decide)),
        if_neg (other (by decide))]
      exact inductionHypothesis fun later present => inert later (List.mem_cons_of_mem c present)

/-! ## Reading in step -/

theorem Clears.behindString
    {quote : Char}
    {text other : Text}
    (clears : Clears text other)
    (isQuote : quote ∈ signs) :
    Clears (afterString quote text) (afterString quote other) := by
  induction clears with
  | nil => exact .nil
  | keep plain later inductionHypothesis =>
      rw [afterString_cons plain, afterString_cons plain]
      split
      · exact later
      · exact inductionHypothesis
  | escape c _ inductionHypothesis =>
      rw [afterString, afterString]
      exact inductionHypothesis
  | lone => exact .nil
  | gap count inert _ inductionHypothesis =>
      rw [afterString_inert isQuote (isInert_slash inert),
        afterString_inert isQuote (isInert_replicate _)]
      exact inductionHypothesis

theorem Clears.behindAttribute
    {text other : Text}
    (clears : Clears text other) :
    Clears (afterAttribute text) (afterAttribute other) := by
  induction length : text.length using Nat.strongRecOn generalizing text other with
  | _ size inductionHypothesis =>
  subst length
  cases clears with
  | nil =>
      rw [afterAttribute]
      exact .nil
  | @keep c text other plain later =>
      have within := fun {rest more : Text} (clears : Clears rest more)
          (shorter : rest.length ≤ text.length) =>
        inductionHypothesis rest.length (Nat.lt_succ_of_le shorter) clears rfl
      rw [afterAttribute, afterAttribute, if_neg plain, if_neg plain]
      split
      · next isQuote =>
          have isSign : c ∈ signs := by rcases isQuote with rfl | rfl <;> decide
          exact within (later.behindString isSign) (length_afterString_le c text)
      · split
        · exact later
        · exact within later (Nat.le_refl _)
  | @escape c text other later =>
      rw [afterAttribute_backslash, afterAttribute_backslash]
      exact inductionHypothesis text.length (by simp only [List.length_cons]; omega) later rfl
  | lone =>
      rw [afterAttribute_backslash, List.drop_nil, afterAttribute]
      exact .nil
  | @gap body text other count inert later =>
      rw [afterAttribute_inert (isInert_slash inert), afterAttribute_inert (isInert_replicate _)]
      refine inductionHypothesis text.length ?_ later rfl
      rw [List.length_append, List.length_cons]
      omega

theorem Clears.behindColon
    {text other : Text}
    (clears : Clears text other) :
    Clears (dropColon text) (dropColon other) := by
  cases clears with
  | nil => exact .nil
  | @keep c text other plain later =>
      by_cases isColon : c = ':'
      · subst isColon
        exact later
      · have unchanged (rest : Text) : dropColon (c :: rest) = c :: rest := by
          unfold dropColon
          split
          · next same => exact absurd (List.cons.inj same).1 isColon
          · rfl
        rw [unchanged, unchanged]
        exact .keep plain later
  | escape c later => exact .escape c later
  | lone => exact .lone
  | gap count inert later => exact .gap count inert later

/-- A blank that ends an escape may be the first space of a gap. -/
theorem Clears.behindBlank
    {text other : Text}
    (clears : Clears text other) :
    Parted (dropBlank text) (dropBlank other) := by
  cases clears with
  | nil => exact .clears .nil
  | @keep c text other plain later =>
      change Parted (if Text.isBlank c then text else c :: text)
        (if Text.isBlank c then other else c :: other)
      split
      · exact .clears later
      · exact .clears (.keep plain later)
  | escape c later => exact .clears (.escape c later)
  | lone => exact .clears .lone
  | gap count inert later => exact .gap count inert later

theorem takeWhile_take_cons_of_isHexDigit
    {c : Char}
    (noDigit : isHexDigit c = false)
    (rest : Text)
    (limit : Nat) :
    ((c :: rest).take limit).takeWhile isHexDigit = [] := by
  cases limit with
  | zero => rfl
  | succ less => exact List.takeWhile_cons_of_neg (Bool.eq_false_iff.mp noDigit)

/-- Two texts with the same hexadecimal digits in front, and gaps only behind these. -/
def ClearsBehindDigits (limit : Nat) (text other : Text) : Prop :=
  (text.take limit).takeWhile isHexDigit = (other.take limit).takeWhile isHexDigit ∧
    Clears (text.drop ((text.take limit).takeWhile isHexDigit).length)
      (other.drop ((text.take limit).takeWhile isHexDigit).length)

theorem Clears.behindNoDigits
    {first second : Char}
    {text other : Text}
    (clears : Clears (first :: text) (second :: other))
    (noDigit : isHexDigit first = false)
    (noDigitToo : isHexDigit second = false)
    (limit : Nat) :
    ClearsBehindDigits limit (first :: text) (second :: other) := by
  unfold ClearsBehindDigits
  rw [takeWhile_take_cons_of_isHexDigit noDigit, takeWhile_take_cons_of_isHexDigit noDigitToo]
  exact ⟨rfl, clears⟩

/-- There are no gaps among digits. -/
theorem Clears.behindDigits
    {text other : Text}
    (clears : Clears text other)
    (limit : Nat) :
    ClearsBehindDigits limit text other := by
  induction clears generalizing limit with
  | nil =>
      unfold ClearsBehindDigits
      rw [List.take_nil, List.takeWhile_nil, List.drop_nil]
      exact ⟨rfl, .nil⟩
  | @keep c text other plain later inductionHypothesis =>
      cases isDigit : isHexDigit c with
      | false => exact (Clears.keep plain later).behindNoDigits isDigit isDigit limit
      | true =>
          cases limit with
          | zero => exact ⟨rfl, .keep plain later⟩
          | succ less =>
              obtain ⟨same, behind⟩ := inductionHypothesis less
              unfold ClearsBehindDigits
              rw [List.take_succ_cons, List.take_succ_cons, List.takeWhile_cons_of_pos isDigit,
                List.takeWhile_cons_of_pos isDigit, List.length_cons, List.drop_succ_cons,
                List.drop_succ_cons, same]
              rw [same] at behind
              exact ⟨rfl, behind⟩
  | escape c later => exact (Clears.escape c later).behindNoDigits rfl rfl limit
  | lone => exact Clears.lone.behindNoDigits rfl rfl limit
  | gap count inert later => exact (Clears.gap count inert later).behindNoDigits rfl rfl limit

/-- What a backslash stands for is the same. -/
theorem Clears.behindEscape
    {c : Char}
    {text other : Text}
    (clears : Clears text other) :
    (unescape (c :: text)).1 = (unescape (c :: other)).1 ∧
      Parted (unescape (c :: text)).2 (unescape (c :: other)).2 := by
  cases isDigit : isHexDigit c with
  | false =>
      rw [unescape_cons isDigit, unescape_cons isDigit]
      exact ⟨rfl, .clears clears⟩
  | true =>
      have plain : c ≠ '\\' := by
        rintro rfl
        exact absurd isDigit (by decide)
      obtain ⟨same, behind⟩ := (Clears.keep plain clears).behindDigits 6
      change escapeDigits (c :: text) = escapeDigits (c :: other) at same
      change Clears ((c :: text).drop (escapeDigits (c :: text)).length)
        ((c :: other).drop (escapeDigits (c :: text)).length) at behind
      have some : (escapeDigits (c :: text)).isEmpty = false := by
        unfold escapeDigits
        rw [List.take_succ_cons, List.takeWhile_cons_of_pos isDigit]
        rfl
      unfold unescape
      simp only [← same, some, Bool.false_eq_true, if_false]
      exact ⟨trivial, behind.behindBlank⟩

/-- Texts that begin with the same identifier. -/
structure NamesAlike (text other : Text) : Prop where
  name : (identifier text).1 = (identifier other).1
  behind : Parted (identifier text).2 (identifier other).2

theorem Parted.namesAlike_of_stop
    {first second : Char}
    {text other : Text}
    (parted : Parted (first :: text) (second :: other))
    (noName : isNameChar first = false ∧ first ≠ '\\')
    (noNameToo : isNameChar second = false ∧ second ≠ '\\') :
    NamesAlike (first :: text) (second :: other) := by
  have stop := identifier_stop noName.1 noName.2 text
  have stopToo := identifier_stop noNameToo.1 noNameToo.2 other
  exact ⟨by rw [stop, stopToo], by rwa [stop, stopToo]⟩

theorem namesAlike_nil : NamesAlike [] [] :=
  ⟨rfl, by rw [identifier_nil]; exact .clears .nil⟩

theorem Parted.namesAlike
    {text other : Text}
    (parted : Parted text other) :
    NamesAlike text other := by
  induction length : text.length using Nat.strongRecOn generalizing text other with
  | _ size inductionHypothesis =>
  subst length
  have noSlash : isNameChar '/' = false ∧ '/' ≠ '\\' := by decide
  have noSpace : isNameChar ' ' = false ∧ ' ' ≠ '\\' := by decide
  cases parted with
  | gap count inert later =>
      exact (Parted.gap count inert later).namesAlike_of_stop noSlash noSpace
  | clears clears =>
      cases clears with
      | nil => exact namesAlike_nil
      | @keep c text other plain later =>
          cases isName : isNameChar c with
          | false =>
              exact (Parted.clears (.keep plain later)).namesAlike_of_stop ⟨isName, plain⟩
                ⟨isName, plain⟩
          | true =>
              have behind :=
                inductionHypothesis text.length (Nat.lt_succ_self _) (.clears later) rfl
              have read := (Writes.plain isName).identifier_append text
              have readToo := (Writes.plain isName).identifier_append other
              rw [List.singleton_append] at read readToo
              refine ⟨?_, ?_⟩
              · rw [read, readToo, behind.name]
              · rw [read, readToo]
                exact behind.behind
      | @escape c text other later =>
          obtain ⟨same, opened⟩ := @Clears.behindEscape c text other later
          have shorter := length_unescape_le (c :: text)
          have behind := inductionHypothesis (unescape (c :: text)).2.length
            (by rw [List.length_cons]; omega) opened rfl
          refine ⟨?_, ?_⟩
          · rw [identifier_backslash, identifier_backslash, same, behind.name]
          · rw [identifier_backslash, identifier_backslash]
            exact behind.behind
      | lone => exact ⟨rfl, by rw [identifier_lone]; exact .clears .nil⟩
      | gap count inert later =>
          exact (Parted.clears (.gap count inert later)).namesAlike_of_stop noSlash noSpace

/-- The scopes after a pseudo-class of a name that no parenthesis follows. -/
def scopesAfter (scopes : Scopes) (name : Text) : Scopes :=
  match scopeOf? name with
  | some isGlobal => scopes.set isGlobal
  | none => scopes

theorem afterPseudo_of_head?
    {rest : Text}
    (noParen : rest.head? ≠ some '(')
    (scopes : Scopes)
    (name : Text) :
    afterPseudo scopes name rest = (scopesAfter scopes name, rest) := by
  unfold afterPseudo scopesAfter
  split
  · exact absurd rfl noParen
  · cases scopeOf? name <;> rfl

/-- A pseudo-class with the same scopes behind it, and a parenthesis behind it in both
texts or in neither. -/
structure PseudosAlike (scopes : Scopes) (name text other : Text) : Prop where
  sameScopes : (afterPseudo scopes name text).1 = (afterPseudo scopes name other).1
  behind : Parted (afterPseudo scopes name text).2 (afterPseudo scopes name other).2

theorem Parted.pseudosAlike_of_head?
    {text other : Text}
    (parted : Parted text other)
    (noParen : text.head? ≠ some '(')
    (noParenToo : other.head? ≠ some '(')
    (scopes : Scopes)
    (name : Text) :
    PseudosAlike scopes name text other := by
  refine ⟨?_, ?_⟩
  · rw [afterPseudo_of_head? noParen, afterPseudo_of_head? noParenToo]
  · rwa [afterPseudo_of_head? noParen, afterPseudo_of_head? noParenToo]

theorem Parted.pseudosAlike
    {text other : Text}
    (parted : Parted text other)
    (scopes : Scopes)
    (name : Text) :
    PseudosAlike scopes name text other := by
  by_cases paren : text.head? = some '('
  · cases parted with
    | gap => exact absurd paren (by simp)
    | clears clears =>
        cases clears with
        | nil | lone | escape | gap => exact absurd paren (by simp)
        | keep _ later =>
            obtain rfl := Option.some.inj paren
            exact ⟨rfl, .clears later⟩
  · refine parted.pseudosAlike_of_head? paren ?_ scopes name
    cases parted with
    | gap => simp [List.replicate_succ]
    | clears clears =>
        cases clears with
        | nil | lone | escape => simp
        | keep => exact paren
        | gap => simp [List.replicate_succ]

theorem Clears.beginsClass_eq
    {text other : Text}
    (clears : Clears text other) :
    beginsClass text = beginsClass other := by
  have heads : text.head?.any Char.isDigit = other.head?.any Char.isDigit := by
    cases clears <;> rfl
  unfold beginsClass
  rw [(Parted.clears clears).namesAlike.name, heads]

theorem classesFrom_backslash (scopes : Scopes) (rest : Text) :
    classesFrom scopes ('\\' :: rest) = classesFrom scopes (identifier ('\\' :: rest)).2 := by
  rw [classesFrom, if_neg (by decide), if_neg (by decide), if_neg (by decide),
    if_neg (by decide), if_neg (by decide), if_neg (by decide), if_neg (by decide),
    if_neg (by decide), if_pos rfl]

/-- A character at the front of both texts is read alike, if all that can be left behind
it is. -/
theorem Clears.classesFrom_keep
    {c : Char}
    {text other : Text}
    (plain : c ≠ '\\')
    (later : Clears text other)
    (within : ∀ {rest more : Text}, Parted rest more → rest.length ≤ text.length →
      ∀ scopes, classesFrom scopes rest = classesFrom scopes more)
    (scopes : Scopes) :
    classesFrom scopes (c :: text) = classesFrom scopes (c :: other) := by
  have behindName := (Parted.clears later).namesAlike
  have shorterName := length_identifier_le text
  rw [classesFrom, classesFrom]
  by_cases isDot : c = '.'
  · rw [if_pos isDot, if_pos isDot]
    simp only [later.beginsClass_eq, behindName.name, within behindName.behind shorterName]
  rw [if_neg isDot, if_neg isDot]
  by_cases isHash : c = '#'
  · rw [if_pos isHash, if_pos isHash]
    exact within behindName.behind shorterName scopes
  rw [if_neg isHash, if_neg isHash]
  by_cases isBracket : c = '['
  · rw [if_pos isBracket, if_pos isBracket]
    exact within (.clears later.behindAttribute) (length_afterAttribute_le text) scopes
  rw [if_neg isBracket, if_neg isBracket]
  by_cases isQuote : c = '"' ∨ c = '\''
  · have isSign : c ∈ signs := by rcases isQuote with rfl | rfl <;> decide
    rw [if_pos isQuote, if_pos isQuote]
    exact within (.clears (later.behindString isSign)) (length_afterString_le c text) scopes
  rw [if_neg isQuote, if_neg isQuote]
  by_cases isColon : c = ':'
  · have named := (Parted.clears later.behindColon).namesAlike
    have pseudos := named.behind.pseudosAlike scopes (identifier (dropColon text)).1
    have dropped := length_dropColon_le text
    have identified := length_identifier_le (dropColon text)
    have passed := length_afterPseudo_le scopes (identifier (dropColon text)).1
      (identifier (dropColon text)).2
    rw [if_pos isColon, if_pos isColon]
    simp only [← named.name, ← pseudos.sameScopes]
    exact within pseudos.behind (by omega) _
  rw [if_neg isColon, if_neg isColon]
  have next (scopes : Scopes) : classesFrom scopes text = classesFrom scopes other :=
    within (.clears later) (Nat.le_refl _) scopes
  rw [next, next, next, next, if_neg plain, if_neg plain]

/-- The same classes are found. -/
theorem Clears.classesFrom_eq
    {text other : Text}
    (clears : Clears text other)
    (scopes : Scopes) :
    classesFrom scopes text = classesFrom scopes other := by
  -- On the length of the text, as the scanner goes on behind whatever it has read.
  induction length : text.length using Nat.strongRecOn generalizing text other scopes with
  | _ size inductionHypothesis =>
  subst length
  have within {rest more : Text} (parted : Parted rest more)
      (shorter : rest.length < text.length) (scopes : Scopes) :
      classesFrom scopes rest = classesFrom scopes more := by
    cases parted with
    | clears clears => exact inductionHypothesis _ shorter clears scopes rfl
    | @gap body rest more count inert later =>
        rw [classesFrom_inert (isInert_slash inert), classesFrom_inert (isInert_replicate _)]
        refine inductionHypothesis rest.length (Nat.lt_of_le_of_lt ?_ shorter) later scopes rfl
        rw [List.length_append]
        exact Nat.le_add_left _ _
  cases clears with
  | nil => rfl
  | keep plain later =>
      exact later.classesFrom_keep plain
        (fun parted shorter => within parted (Nat.lt_succ_of_le shorter)) scopes
  | @escape c text other later =>
      have named := (Parted.clears (.escape c later)).namesAlike
      have shorter : (identifier ('\\' :: c :: text)).2.length < ('\\' :: c :: text).length := by
        have opened := length_unescape_le (c :: text)
        have identified := length_identifier_le (unescape (c :: text)).2
        rw [identifier_backslash]
        simp only [List.length_cons] at *
        omega
      rw [classesFrom_backslash, classesFrom_backslash]
      exact within named.behind shorter scopes
  | lone => rfl
  | @gap body text other count inert later =>
      rw [classesFrom_inert (isInert_slash inert), classesFrom_inert (isInert_replicate _)]
      refine inductionHypothesis text.length ?_ later scopes rfl
      rw [List.length_append, List.length_cons]
      omega

end Selector
end StyleTypings
