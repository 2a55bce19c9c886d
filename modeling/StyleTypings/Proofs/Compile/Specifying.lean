import StyleTypings.Compile.ImportSpecifier
import StyleTypings.Proofs.Text.Trimming

/-!
# Specifiers of imports as they are written

A specifier stands between quotes, or in an address, where it may go without quotes. Options in
parentheses may stand before it and media queries behind it. The specifier is found again in every
form but one: an address ends at its first closing parenthesis, also if that stands between the
quotes, and then nothing is found.
-/

namespace StyleTypings
namespace ImportSpecifier

/-! ## Written forms -/

/-- A quotation mark. -/
def IsQuote (c : Char) : Prop :=
  c = '"' ∨ c = '\''

instance (c : Char) : Decidable (IsQuote c) :=
  inferInstanceAs (Decidable (_ ∨ _))

/-- Options in parentheses and blanks behind them, or nothing. -/
inductive IsOptions : Text → Prop
  | absent : IsOptions []
  | listed
      (options blanks : Text)
      (isOpen : ')' ∉ options)
      (areBlank : ∀ c ∈ blanks, Text.isBlank c = true) :
      IsOptions ('(' :: options ++ ')' :: blanks)

/-- A specifier that can stand in an address without quotes. -/
structure IsWord (specifier : Text) : Prop where
  nonempty : specifier ≠ []
  solid : ∀ c ∈ specifier, Text.isBlank c = false
  unquoted : ∀ c ∈ specifier, ¬ IsQuote c
  isOpen : ')' ∉ specifier

instance (specifier : Text) : Decidable (IsWord specifier) :=
  decidable_of_iff
    (specifier ≠ [] ∧
      (specifier.all fun c => !Text.isBlank c && !decide (IsQuote c) && c != ')') = true) <| by
    simp only [List.all_eq_true, Bool.and_eq_true, Bool.not_eq_true', decide_eq_false_iff_not,
      bne_iff_ne]
    constructor
    · rintro ⟨nonempty, areFit⟩
      exact ⟨nonempty, fun c among => (areFit c among).1.1, fun c among => (areFit c among).1.2,
        fun among => (areFit _ among).2 rfl⟩
    · rintro ⟨nonempty, solid, unquoted, isOpen⟩
      exact ⟨nonempty, fun c among =>
        ⟨⟨solid c among, unquoted c among⟩, fun same => isOpen (same ▸ among)⟩⟩

variable {quote : Char} {specifier options : Text}

theorem IsQuote.isBlank (isQuote : IsQuote quote) : Text.isBlank quote = false := by
  rcases isQuote with rfl | rfl
  · rfl
  · rfl

/-! ## Options -/

theorem afterOptions?_of_ne {c : Char} (noOptions : c ≠ '(') (rest : Text) :
    afterOptions? (c :: rest) = some (c :: rest) := by
  unfold afterOptions?
  split
  · next same => exact absurd (List.cons.inj same).1 noOptions
  · rfl

/-- Options are dropped, and so are the blanks at the end of the params. -/
theorem afterOptions?_trim
    {c last : Char}
    (isOptions : IsOptions options)
    (solid : Text.isBlank c = false)
    (noOptions : c ≠ '(')
    (solidLast : Text.isBlank last = false)
    (front back : Text) :
    afterOptions? (options ++ (c :: front ++ last :: back)).trim =
      some (c :: front ++ last :: back.trimEnd) := by
  cases isOptions with
  | absent =>
      rw [List.nil_append, Text.trim, List.cons_append, Text.trimStart_cons solid,
        ← List.cons_append, Text.trimEnd_append_cons solidLast, List.cons_append,
        afterOptions?_of_ne noOptions]
  | listed list blanks isOpen areBlank =>
      have inside : ')' ∉ '(' :: list :=
        List.not_mem_cons_of_ne_of_not_mem (by decide) isOpen
      have regrouped : '(' :: list ++ ')' :: blanks ++ (c :: front ++ last :: back) =
          '(' :: (list ++ ')' :: (blanks ++ c :: front)) ++ last :: back := by
        simp
      have trimmed : Text.trim ('(' :: list ++ ')' :: blanks ++ (c :: front ++ last :: back)) =
          '(' :: list ++ ')' :: (blanks ++ (c :: front ++ last :: back.trimEnd)) := by
        rw [regrouped, Text.trim, List.cons_append, Text.trimStart_cons rfl, ← List.cons_append,
          Text.trimEnd_append_cons solidLast]
        simp
      have dropped : Text.trimStart (blanks ++ (c :: front ++ last :: back.trimEnd)) =
          c :: front ++ last :: back.trimEnd := by
        rw [Text.trimStart, List.dropWhile_append_of_pos areBlank]
        exact Text.trimStart_cons solid _
      rw [trimmed, List.cons_append, afterOptions?, ← List.cons_append,
        Text.splitFirst?_append_cons inside, Option.map_some, dropped]

/-! ## Addresses and quotes -/

theorem insideAddress?_of_isQuote (isQuote : IsQuote quote) (rest : Text) :
    insideAddress? (quote :: rest) = some (quote :: rest) := by
  rcases isQuote with rfl | rfl
  · rfl
  · rfl

/-- An address ends at its first closing parenthesis. -/
theorem insideAddress?_address {body : Text} (isOpen : ')' ∉ body) (back : Text) :
    insideAddress? ("url(".toList ++ (body ++ ')' :: back)) = some body.trim := by
  have stripped : Text.stripStart? "url(" ("url(".toList ++ (body ++ ')' :: back)) =
      some (body ++ ')' :: back) := rfl
  rw [insideAddress?, stripped]
  simp only
  rw [Text.splitFirst?_append_cons isOpen, Option.map_some]

theorem quotedOrWord?_of_isQuote (isQuote : IsQuote quote) (rest : Text) :
    quotedOrWord? (quote :: rest) = (Text.splitFirst? [quote] rest).map Prod.fst :=
  if_pos isQuote

theorem quotedOrWord?_quoted
    (isQuote : IsQuote quote)
    (fresh : quote ∉ specifier)
    (back : Text) :
    quotedOrWord? (quote :: specifier ++ quote :: back) = some specifier := by
  rw [List.cons_append, quotedOrWord?_of_isQuote isQuote, Text.splitFirst?_append_cons fresh,
    Option.map_some]

/-- A quotation that is not closed is no specifier. -/
theorem quotedOrWord?_of_notMem
    (isQuote : IsQuote quote)
    (fresh : quote ∉ specifier) :
    quotedOrWord? (quote :: specifier) = none := by
  rw [quotedOrWord?_of_isQuote isQuote, Text.splitFirst?_of_notMem fresh, Option.map_none]

theorem IsWord.quotedOrWord? (isWord : IsWord specifier) :
    quotedOrWord? specifier = some specifier := by
  have word := Text.firstWord?_of_solid isWord.nonempty isWord.solid
  obtain ⟨c, rest, rfl⟩ := List.exists_cons_of_ne_nil isWord.nonempty
  have noQuote : ¬ IsQuote c := isWord.unquoted c List.mem_cons_self
  exact (if_neg noQuote).trans word

/-! ## Params -/

theorem ofParams?_of_isQuote
    (isQuote : IsQuote quote)
    (isOptions : IsOptions options)
    (fresh : quote ∉ specifier)
    (media : Text) :
    ofParams? (options ++ (quote :: specifier ++ quote :: media)) = some specifier := by
  have noOptions : quote ≠ '(' := by
    rintro rfl
    exact absurd isQuote (by decide)
  have rest := afterOptions?_trim isOptions isQuote.isBlank noOptions isQuote.isBlank
    specifier media
  have inside : insideAddress? (quote :: specifier ++ quote :: media.trimEnd) =
      some (quote :: specifier ++ quote :: media.trimEnd) :=
    insideAddress?_of_isQuote isQuote _
  simp only [ofParams?, rest, Option.bind_eq_bind, Option.bind_some, inside,
    quotedOrWord?_quoted isQuote fresh]

/-- What stands in an address is read without the blanks around it. -/
theorem ofParams?_address
    {body : Text}
    (isOptions : IsOptions options)
    (isOpen : ')' ∉ body)
    (media : Text) :
    ofParams? (options ++ ("url(".toList ++ (body ++ ')' :: media))) =
      quotedOrWord? body.trim := by
  have regrouped (back : Text) : "url(".toList ++ (body ++ ')' :: back) =
      'u' :: ("rl(".toList ++ body) ++ ')' :: back := by
    simp
  have rest := afterOptions?_trim isOptions (rfl : Text.isBlank 'u' = false) (by decide)
    (rfl : Text.isBlank ')' = false) ("rl(".toList ++ body) media
  rw [← regrouped, ← regrouped] at rest
  simp only [ofParams?, rest, Option.bind_eq_bind, Option.bind_some,
    insideAddress?_address isOpen]

/-- A quotation in an address is read if the address does not end in it. -/
theorem ofParams?_address_of_isQuote
    (isQuote : IsQuote quote)
    (isOptions : IsOptions options)
    (fresh : quote ∉ specifier)
    (media : Text) :
    ofParams? (options ++ ("url(".toList ++ (quote :: specifier ++ quote :: ')' :: media))) =
      if ')' ∈ specifier then none else some specifier := by
  have otherQuote : ')' ≠ quote := by
    rintro rfl
    exact absurd isQuote (by decide)
  by_cases ends : ')' ∈ specifier
  · -- The address ends within the quotation, which is not closed before.
    obtain ⟨front, back, rfl, isFirst⟩ := List.eq_append_cons_of_mem ends
    have isOpen : ')' ∉ quote :: front :=
      List.not_mem_cons_of_ne_of_not_mem otherQuote isFirst
    have read := ofParams?_address isOptions isOpen (back ++ quote :: ')' :: media)
    have whole : Text.trim (quote :: front) = quote :: Text.trimEnd front := by
      rw [Text.trim, Text.trimStart_cons isQuote.isBlank]
      exact Text.trimEnd_append_cons isQuote.isBlank [] front
    have freshToo : quote ∉ Text.trimEnd front := fun among =>
      fresh (List.mem_append_left _ ((Text.trimEnd_prefix front).subset among))
    have regrouped : quote :: (front ++ ')' :: back) ++ quote :: ')' :: media =
        quote :: front ++ ')' :: (back ++ quote :: ')' :: media) := by
      simp
    rw [if_pos ends, regrouped, read, whole]
    exact quotedOrWord?_of_notMem isQuote freshToo
  · have isOpen : ')' ∉ quote :: specifier ++ [quote] := by
      simp [otherQuote, ends]
    have read := ofParams?_address isOptions isOpen media
    have whole : Text.trim (quote :: specifier ++ [quote]) = quote :: specifier ++ [quote] := by
      rw [Text.trim, List.cons_append, Text.trimStart_cons isQuote.isBlank, ← List.cons_append,
        Text.trimEnd_append_cons isQuote.isBlank]
      rfl
    rw [List.append_assoc, List.singleton_append, whole] at read
    rw [if_neg ends, read]
    exact quotedOrWord?_quoted isQuote fresh []

/-- A specifier between quotes is found, whatever options stand before it and whatever stands
behind it, and so is a word that is an address. Between the quotes of an address it is found just
if it has no closing parenthesis; else nothing is found. -/
theorem ofParams?_written
    (isQuote : IsQuote quote)
    (fresh : quote ∉ specifier)
    (isOptions : IsOptions options)
    (media : Text) :
    ofParams? (options ++ (quote :: specifier ++ quote :: media)) = some specifier ∧
      ofParams? (options ++ ("url(".toList ++ (quote :: specifier ++ quote :: ')' :: media))) =
        (if ')' ∈ specifier then none else some specifier) ∧
      (IsWord specifier →
        ofParams? (options ++ ("url(".toList ++ (specifier ++ ')' :: media))) =
          some specifier) := by
  refine ⟨?_, ?_, ?_⟩
  · exact ofParams?_of_isQuote isQuote isOptions fresh media
  · exact ofParams?_address_of_isQuote isQuote isOptions fresh media
  · intro isWord
    rw [ofParams?_address isOptions isWord.isOpen, Text.trim_of_solid isWord.solid]
    exact isWord.quotedOrWord?

theorem ofParams?_written_reference :
    IsQuote '"' ∧ '"' ∉ "a.less".toList ∧ IsOptions "(reference) ".toList ∧
      ofParams? "(reference) \"a.less\" screen" = some "a.less".toList ∧
      ofParams? "(reference) url(\"a.less\") screen" = some "a.less".toList ∧
      ofParams? "(reference) url(a.less) screen" = some "a.less".toList := by
  have isOptions : IsOptions "(reference) ".toList :=
    .listed "reference".toList " ".toList (by decide) (List.all_eq_true.mp rfl)
  have isWord : IsWord "a.less".toList := by decide
  have fresh : '"' ∉ "a.less".toList := by decide
  obtain ⟨bare, quoted, word⟩ := ofParams?_written (.inl rfl) fresh isOptions " screen"
  exact ⟨.inl rfl, fresh, isOptions, bare, quoted, word isWord⟩

/-- With a closing parenthesis between the quotes of an address its specifier is not found. -/
theorem parenthesis_hides_specifier :
    IsQuote '"' ∧ '"' ∉ "a)b.css".toList ∧
      ofParams? "\"a)b.css\"" = some "a)b.css".toList ∧
      ofParams? "url(\"a)b.css\")" = none := by
  decide

end ImportSpecifier
end StyleTypings
