import StyleTypings.Classes.Selector
import StyleTypings.Declaration.Render
import StyleTypings.Proofs.Text.Cutting

/-!
# The keys of an interface

The default export is an interface with one property for each class, whose key is a string
literal. In TypeScript a string is a list of UTF-16 units, and a literal may write them by
escapes. Names are put between the quotes as they are, so the keys denote the names just if
no name has a quote, a backslash or the end of a line in it: a quote ends the literal, an
escape denotes less than is written, and a line must not end in a literal.
-/

namespace StyleTypings

/-! ## Strings of UTF-16 units -/

namespace Text

/-- The UTF-16 units of a code: a surrogate pair past the first plane. -/
def unitsOfCode (code : Nat) : List Nat :=
  if code < 0x10000 then
    [code]
  else
    [0xD800 + (code - 0x10000) / 0x400, 0xDC00 + (code - 0x10000) % 0x400]

/-- The UTF-16 units of a text. -/
def utf16 (text : Text) : List Nat :=
  text.flatMap fun c => unitsOfCode c.toNat

theorem length_unitsOfCode (c : Char) : (unitsOfCode c.toNat).length = utf16Units c := by
  unfold unitsOfCode utf16Units
  split <;> rfl

theorem length_unitsOfCode_le (code : Nat) : (unitsOfCode code).length ≤ 2 := by
  unfold unitsOfCode
  split <;> simp

@[simp] theorem utf16_nil : utf16 [] = [] := rfl

@[simp] theorem utf16_cons (c : Char) (rest : Text) :
    utf16 (c :: rest) = unitsOfCode c.toNat ++ utf16 rest := rfl

@[simp] theorem length_utf16 (text : Text) : (utf16 text).length = utf16Size text := by
  induction text with
  | nil => rfl
  | cons c rest inductionHypothesis =>
      rw [utf16_cons, List.length_append, length_unitsOfCode, inductionHypothesis,
        utf16Size_cons]

theorem length_le_utf16Size (text : Text) : text.length ≤ utf16Size text := by
  induction text with
  | nil => exact Nat.le_refl _
  | cons c rest inductionHypothesis =>
      have positive := utf16Units_pos c
      rw [List.length_cons, utf16Size_cons]
      omega

end Text

/-! ## String literals -/

namespace StringLiteral

open Selector Text

/-- Letters and signs that stand for a unit behind a backslash. -/
def letters : List (Char × Nat) :=
  [ ('\'', 0x27), ('"', 0x22), ('\\', 0x5C), ('b', 0x08), ('f', 0x0C), ('n', 0x0A),
    ('r', 0x0D), ('t', 0x09), ('v', 0x0B) ]

/-- The characters that end a line. -/
def lineEnds : List Char :=
  ['\n', '\r', '\u2028', '\u2029']

/-- What may stand behind a backslash in a literal, and the units that it denotes; a line
that ends there denotes nothing. -/
inductive Escapes : Text → List Nat → Prop
  | letter
      {c : Char}
      {unit : Nat}
      (listed : (c, unit) ∈ letters) :
      Escapes [c] [unit]
  | hex
      {digits : Text}
      (hex : ∀ digit ∈ digits, isHexDigit digit = true)
      (two : digits.length = 2) :
      Escapes ('x' :: digits) [hexNumber digits]
  | unit
      {digits : Text}
      (hex : ∀ digit ∈ digits, isHexDigit digit = true)
      (four : digits.length = 4) :
      Escapes ('u' :: digits) [hexNumber digits]
  | code
      {digits : Text}
      (hex : ∀ digit ∈ digits, isHexDigit digit = true)
      (nonempty : digits ≠ [])
      (small : hexNumber digits < 0x110000) :
      Escapes ('u' :: '{' :: (digits ++ ['}'])) (unitsOfCode (hexNumber digits))
  | lineEnd
      {c : Char}
      (ends : c ∈ lineEnds) :
      Escapes [c] []
  | carriageReturn : Escapes ['\r', '\n'] []
  | other
      {c : Char}
      (noLetter : ∀ unit, (c, unit) ∉ letters)
      (noNumber : c ∉ ['x', 'u'] ∧ c.isDigit = false)
      (noEnd : c ∉ lineEnds) :
      Escapes [c] (unitsOfCode c.toNat)

/-- The characters between single quotes and the units that the literal denotes. -/
inductive Denotes : Text → List Nat → Prop
  | nil : Denotes [] []
  | char
      {c : Char}
      {body : Text}
      {units : List Nat}
      (plain : c ∉ ['\'', '\\', '\n', '\r'])
      (later : Denotes body units) :
      Denotes (c :: body) (unitsOfCode c.toNat ++ units)
  | escape
      {sequence body : Text}
      {own units : List Nat}
      (escapes : Escapes sequence own)
      (later : Denotes body units) :
      Denotes ('\\' :: (sequence ++ body)) (own ++ units)
  | zero
      {body : Text}
      {units : List Nat}
      (noDigit : ∀ c ∈ body.head?, c.isDigit = false)
      (later : Denotes body units) :
      Denotes ('\\' :: '0' :: body) (0 :: units)

/-- A text that denotes itself between single quotes. -/
def IsVerbatim (text : Text) : Prop :=
  ∀ c ∈ text, c ∉ ['\'', '\\', '\n', '\r']

instance (text : Text) : Decidable (IsVerbatim text) :=
  List.decidableBAll _ text

theorem IsVerbatim.denotes
    {text : Text}
    (verbatim : IsVerbatim text) :
    Denotes text (utf16 text) := by
  induction text with
  | nil => exact .nil
  | cons c rest inductionHypothesis =>
      obtain ⟨plain, later⟩ := List.forall_mem_cons.mp verbatim
      exact .char plain (inductionHypothesis later)

/-- What stands behind a backslash denotes no more units than it has. -/
theorem Escapes.length_le
    {sequence : Text}
    {units : List Nat}
    (escapes : Escapes sequence units) :
    units.length ≤ utf16Size sequence := by
  have counted := length_le_utf16Size sequence
  cases escapes with
  | letter | hex | unit => exact Nat.le_trans (Nat.succ_pos _) counted
  | @code digits _ _ _ =>
      have few := length_unitsOfCode_le (hexNumber digits)
      simp only [List.length_cons, List.length_append] at counted
      omega
  | lineEnd | carriageReturn => exact Nat.zero_le _
  | @other c _ _ _ =>
      rw [length_unitsOfCode]
      exact Nat.le_refl _

/-- A literal denotes at most as many units as it has, and fewer if it has a backslash. -/
theorem Denotes.length_le
    {body : Text}
    {units : List Nat}
    (denotes : Denotes body units) :
    units.length ≤ utf16Size body ∧ ('\\' ∈ body → units.length < utf16Size body) := by
  have backslash : utf16Units '\\' = 1 := rfl
  induction denotes with
  | nil => exact ⟨Nat.le_refl _, nofun⟩
  | @char c body units plain later inductionHypothesis =>
      rw [List.length_append, length_unitsOfCode, utf16Size_cons]
      refine ⟨Nat.add_le_add_left inductionHypothesis.1 _, fun present => ?_⟩
      rcases List.mem_cons.mp present with rfl | behind
      · exact absurd plain (by decide)
      · exact Nat.add_lt_add_left (inductionHypothesis.2 behind) _
  | @escape sequence body own units escapes later inductionHypothesis =>
      have fewer := escapes.length_le
      rw [List.length_append, utf16Size_cons, utf16Size_append, backslash]
      omega
  | @zero body units noDigit later inductionHypothesis =>
      have digit : utf16Units '0' = 1 := rfl
      rw [List.length_cons, utf16Size_cons, utf16Size_cons, backslash, digit]
      omega

/-- A literal without a backslash is verbatim. -/
theorem Denotes.isVerbatim
    {body : Text}
    {units : List Nat}
    (denotes : Denotes body units)
    (noEscape : '\\' ∉ body) :
    IsVerbatim body := by
  induction denotes with
  | nil => exact nofun
  | char plain later inductionHypothesis =>
      have behind := inductionHypothesis fun present => noEscape (List.mem_cons_of_mem _ present)
      exact List.forall_mem_cons.mpr ⟨plain, behind⟩
  | escape | zero => exact absurd List.mem_cons_self noEscape

/-- Characters up to a quote, where a verbatim text and a quote stand in front: they are the
text, and it is denoted. -/
theorem Denotes.eq_of_isVerbatim
    {body name more others : Text}
    {units : List Nat}
    (denotes : Denotes body units)
    (verbatim : IsVerbatim name)
    (split : body ++ '\'' :: more = name ++ '\'' :: others) :
    body = name ∧ units = utf16 name := by
  have noFirst {c : Char} {rest : Text} (plain : c ∉ ['\'', '\\', '\n', '\r'])
      (same : '\'' :: more = c :: rest) : False := by
    obtain ⟨rfl, -⟩ := List.cons.inj same
    exact absurd plain (by decide)
  induction denotes generalizing name with
  | nil =>
      cases name with
      | nil => exact ⟨rfl, rfl⟩
      | cons c rest => exact (noFirst (List.forall_mem_cons.mp verbatim).1 split).elim
  | char plain later inductionHypothesis =>
      cases name with
      | nil => exact absurd ((List.cons.inj split).1 ▸ plain) (by decide)
      | cons c rest =>
          obtain ⟨rfl, behind⟩ := List.cons.inj split
          obtain ⟨rfl, rfl⟩ :=
            inductionHypothesis (List.forall_mem_cons.mp verbatim).2 behind
          exact ⟨rfl, rfl⟩
  | escape | zero =>
      cases name with
      | nil => exact absurd (List.cons.inj split).1 (by decide)
      | cons c rest =>
          obtain ⟨rfl, -⟩ := List.cons.inj split
          exact absurd (List.forall_mem_cons.mp verbatim).1 (by decide)

/-- In an escape a line feed stands at the front or behind a carriage return. -/
theorem Escapes.behind_of_lineFeed
    {sequence front back : Text}
    {units : List Nat}
    (escapes : Escapes sequence units)
    (split : sequence = front ++ '\n' :: back) :
    ∀ c ∈ front.getLast?, c = '\r' := by
  have present : '\n' ∈ sequence := split ▸ List.mem_append_right front List.mem_cons_self
  have noHex {digits : Text} (hex : ∀ digit ∈ digits, isHexDigit digit = true) :
      '\n' ∉ digits := fun inside => absurd (hex _ inside) (by decide)
  have alone {c : Char} (single : [c] = front ++ '\n' :: back) :
      ∀ c ∈ front.getLast?, c = '\r' := by
    cases front with
    | nil => exact nofun
    | cons first rest => simp at single
  cases escapes with
  | letter | lineEnd | other => exact alone split
  | hex hex => simp [noHex hex] at present
  | unit hex => simp [noHex hex] at present
  | code hex => simp [noHex hex] at present
  | carriageReturn =>
      match front with
      | [] => exact nofun
      | [first] =>
          obtain ⟨rfl, -⟩ := List.cons.inj split
          rintro c ⟨⟩
          rfl
      | _ :: _ :: _ => simp at split

/-- In a literal a line feed stands behind a backslash or a carriage return. -/
theorem Denotes.exists_before_lineFeed
    {body front back : Text}
    {units : List Nat}
    (denotes : Denotes body units)
    (split : body = front ++ '\n' :: back) :
    ∃ c ∈ front.getLast?, c = '\\' ∨ c = '\r' := by
  have lengthen (lead : Text) {front : Text}
      (found : ∃ c ∈ front.getLast?, c = '\\' ∨ c = '\r') :
      ∃ c ∈ (lead ++ front).getLast?, c = '\\' ∨ c = '\r' := by
    obtain ⟨c, isLast, shape⟩ := found
    exact ⟨c, by rw [List.getLast?_append, isLast]; rfl, shape⟩
  induction denotes generalizing front with
  | nil => simp at split
  | @char c body units plain later inductionHypothesis =>
      cases front with
      | nil =>
          obtain ⟨rfl, -⟩ := List.cons.inj split
          exact absurd plain (by decide)
      | cons first front =>
          exact lengthen [first] (inductionHypothesis (List.cons.inj split).2)
  | @escape sequence body own units escapes later inductionHypothesis =>
      cases front with
      | nil => exact absurd (List.cons.inj split).1 (by decide)
      | cons first front =>
          obtain ⟨rfl, inner⟩ := List.cons.inj split
          rcases List.append_eq_append_iff.mp inner with
            ⟨more, rfl, behind⟩ | ⟨more, isSequence, behind⟩
          · exact lengthen ('\\' :: sequence) (inductionHypothesis behind)
          · cases more with
            | nil =>
                rw [List.append_nil] at isSequence
                obtain ⟨_, isLast, -⟩ := @inductionHypothesis [] behind.symm
                exact absurd isLast nofun
            | cons other more =>
                obtain ⟨rfl, -⟩ := List.cons.inj behind
                have before := escapes.behind_of_lineFeed isSequence
                cases last : front.getLast? with
                | none =>
                    rw [List.getLast?_eq_none_iff.mp last]
                    exact ⟨'\\', rfl, .inl rfl⟩
                | some c => exact lengthen ['\\'] ⟨c, last, .inr (before c last)⟩
  | @zero body units noDigit later inductionHypothesis =>
      match front with
      | [] => exact absurd (List.cons.inj split).1 (by decide)
      | [first] =>
          exact absurd (List.cons.inj (List.cons.inj split).2).1 (by decide)
      | first :: second :: front =>
          exact lengthen [first, second]
            (inductionHypothesis (List.cons.inj (List.cons.inj split).2).2)

end StringLiteral
end StyleTypings
