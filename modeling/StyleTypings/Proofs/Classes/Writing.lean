import Mathlib.Data.List.Basic
import StyleTypings.Classes.Selector
import StyleTypings.Proofs.Stylesheet.Lexing

/-!
# Identifiers with escapes

CSSOM says how to serialize an identifier: letters, digits, hyphens, underscores and
everything outside ASCII stand for themselves, other characters stand behind a
backslash, and control characters as well as digits at the front are written by their
codes. Reading an identifier takes back each of the three forms, and so the name.
-/

namespace StyleTypings
namespace Selector

/-! ## Serializing -/

/-- A character by its code, with a space that ends the digits. -/
def codeEscape (c : Char) : Text :=
  '\\' :: (Nat.toDigits 16 c.toNat ++ [' '])

/-- A control character of ASCII. -/
def isControl (c : Char) : Bool :=
  c.toNat < 32 || c.toNat == 127

/-- A character behind others of an identifier. -/
def writeChar (c : Char) : Text :=
  if isControl c then
    codeEscape c
  else if c.isAlphanum || c == '-' || c == '_' || 128 ≤ c.toNat then
    [c]
  else
    ['\\', c]

/-- A character where an identifier cannot have a digit. -/
def writeFirst (c : Char) : Text :=
  if c.isDigit then codeEscape c else writeChar c

/-- A name as an identifier of CSS. -/
def serialize : Text → Text
  | [] => []
  | ['-'] => ['\\', '-']
  | '-' :: second :: rest => '-' :: (writeFirst second ++ rest.flatMap writeChar)
  | first :: rest => writeFirst first ++ rest.flatMap writeChar

/-- The ways to write a character of an identifier. -/
inductive Writes (c : Char) : Text → Prop
  | plain (isName : isNameChar c = true) : Writes c [c]
  | escape
      (noDigit : isHexDigit c = false)
      (noControl : isControl c = false) : Writes c ['\\', c]
  | code (isCoded : isControl c = true ∨ c.isDigit = true) : Writes c (codeEscape c)

/-- A text that is a name with each character written in one of these ways. -/
inductive Written : Text → Text → Prop
  | nil : Written [] []
  | cons
      {c : Char}
      {name unit text : Text}
      (writes : Writes c unit)
      (later : Written name text) : Written (c :: name) (unit ++ text)

theorem Written.append
    {front back frontText backText : Text}
    (first : Written front frontText)
    (second : Written back backText) :
    Written (front ++ back) (frontText ++ backText) := by
  induction first with
  | nil => exact second
  | @cons c name unit text writes _ inductionHypothesis =>
      rw [List.append_assoc, List.cons_append]
      exact .cons writes inductionHypothesis

theorem Written.singleton
    {c : Char}
    {unit : Text}
    (writes : Writes c unit) :
    Written [c] unit := by
  have single := Written.cons writes .nil
  rwa [List.append_nil] at single

/-- A name with more characters is written as these behind the text of the name. -/
theorem Written.exists_append
    {front back text : Text}
    (written : Written (front ++ back) text) :
    ∃ frontText backText, text = frontText ++ backText ∧
      Written front frontText ∧ Written back backText := by
  induction front generalizing text with
  | nil => exact ⟨[], text, rfl, .nil, written⟩
  | cons c rest inductionHypothesis =>
      cases written with
      | @cons _ _ unit _ writes later =>
          obtain ⟨restText, backText, rfl, first, second⟩ := inductionHypothesis later
          exact ⟨unit ++ restText, backText, (List.append_assoc ..).symm, .cons writes first,
            second⟩

/-- The hexadecimal digits are digits and letters. -/
theorem isAlphanum_of_isHexDigit
    {c : Char}
    (isHex : isHexDigit c = true) :
    c.isAlphanum = true := by
  simp only [isHexDigit, Bool.or_eq_true, Bool.and_eq_true, decide_eq_true_eq] at isHex
  change (c.isUpper || c.isLower || c.isDigit) = true
  rcases isHex with (isDigit | ⟨lower, upper⟩) | ⟨lower, upper⟩
  · rw [isDigit, Bool.or_true]
  · have isLower : c.isLower = true :=
      Bool.and_eq_true_iff.mpr
        ⟨decide_eq_true lower, decide_eq_true (Char.le_trans upper (by decide : 'f' ≤ 'z'))⟩
    rw [isLower, Bool.or_true, Bool.true_or]
  · have isUpper : c.isUpper = true :=
      decide_eq_true ⟨lower, Char.le_trans upper (by decide : 'F' ≤ 'Z')⟩
    rw [isUpper, Bool.true_or, Bool.true_or]

theorem writes_writeChar (c : Char) : Writes c (writeChar c) := by
  unfold writeChar
  split
  · next isControl => exact .code (.inl isControl)
  · next noControl =>
      split
      · next isName => exact .plain isName
      · next noName =>
          refine .escape ?_ (Bool.eq_false_iff.mpr noControl)
          refine Bool.eq_false_iff.mpr fun isHex => noName ?_
          rw [isAlphanum_of_isHexDigit isHex]
          rfl

theorem writes_writeFirst (c : Char) : Writes c (writeFirst c) := by
  unfold writeFirst
  split
  · next isDigit => exact .code (.inr isDigit)
  · exact writes_writeChar c

theorem written_flatMap_writeChar (name : Text) : Written name (name.flatMap writeChar) := by
  induction name with
  | nil => exact .nil
  | cons c rest inductionHypothesis => exact .cons (writes_writeChar c) inductionHypothesis

/-- Serializing writes each character in one of the ways. -/
theorem written_serialize (name : Text) : Written name (serialize name) := by
  unfold serialize
  split
  · exact .nil
  · exact .singleton (.escape rfl rfl)
  · next second rest =>
      exact @Written.cons '-' _ ['-'] _ (.plain rfl)
        (.cons (writes_writeFirst second) (written_flatMap_writeChar rest))
  · next first rest _ _ =>
      exact .cons (writes_writeFirst first) (written_flatMap_writeChar rest)

/-- A serialized name does not begin with a digit. -/
theorem head?_serialize (name : Text) :
    ∀ c ∈ (serialize name).head?, c.isDigit = false := by
  have behindUnit {first : Char} (rest : Text) :
      ∀ c ∈ (writeFirst first ++ rest).head?, c.isDigit = false := by
    intro c isFirst
    unfold writeFirst at isFirst
    split at isFirst
    · obtain rfl := Option.some.inj isFirst
      rfl
    · next noDigit =>
        unfold writeChar codeEscape at isFirst
        split at isFirst
        · obtain rfl := Option.some.inj isFirst
          rfl
        · split at isFirst
          · obtain rfl := Option.some.inj isFirst
            exact Bool.eq_false_iff.mpr noDigit
          · obtain rfl := Option.some.inj isFirst
            rfl
  unfold serialize
  split
  · exact nofun
  · rintro c ⟨⟩
    rfl
  · rintro c ⟨⟩
    rfl
  · exact behindUnit _

/-! ## Reading -/

theorem toNat_lt_of_isCoded
    {c : Char}
    (isCoded : isControl c = true ∨ c.isDigit = true) :
    c.toNat < 128 := by
  rcases isCoded with isControl | isDigit
  · simp only [Selector.isControl, Bool.or_eq_true, decide_eq_true_eq, beq_iff_eq] at isControl
    omega
  · simp only [Char.isDigit, Bool.and_eq_true, decide_eq_true_eq, UInt32.le_iff_toNat_le] at isDigit
    exact Nat.lt_of_le_of_lt isDigit.2 (by decide)

/-- The code of an ASCII character in hexadecimal digits. -/
structure IsCode (code : Nat) (digits : Text) : Prop where
  hex : ∀ digit ∈ digits, isHexDigit digit = true
  number : hexNumber digits = code
  nonempty : digits ≠ []
  length : digits.length ≤ 6

theorem isCode_toDigits
    {code : Nat}
    (isAscii : code < 128) :
    IsCode code (Nat.toDigits 16 code) := by
  have all : ∀ code < 128, (Nat.toDigits 16 code).all isHexDigit = true ∧
      hexNumber (Nat.toDigits 16 code) = code ∧ Nat.toDigits 16 code ≠ [] ∧
        (Nat.toDigits 16 code).length ≤ 6 := by
    decide +kernel
  obtain ⟨hex, number, nonempty, length⟩ := all code isAscii
  exact ⟨List.all_eq_true.mp hex, number, nonempty, length⟩

/-- The digits of an escape end at the sixth, or where no other digit follows. -/
theorem escapeDigits_append
    {digits text : Text}
    (hex : ∀ digit ∈ digits, isHexDigit digit = true)
    (atMost : digits.length ≤ 6)
    (whole : digits.length = 6 ∨ ∀ c ∈ text.head?, isHexDigit c = false) :
    escapeDigits (digits ++ text) = digits := by
  have behind : (text.take (6 - digits.length)).takeWhile isHexDigit = [] := by
    rcases whole with full | ends
    · rw [full, Nat.sub_self, List.take_zero, List.takeWhile_nil]
    · cases text with
      | nil => rw [List.take_nil, List.takeWhile_nil]
      | cons c rest =>
          cases 6 - digits.length with
          | zero => rw [List.take_zero, List.takeWhile_nil]
          | succ less =>
              rw [List.take_succ_cons, List.takeWhile_cons_of_neg]
              exact Bool.eq_false_iff.mp (ends c rfl)
  unfold escapeDigits
  rw [List.take_append, List.take_of_length_le atMost, List.takeWhile_append_of_pos hex, behind,
    List.append_nil]

/-- An escape by a code stands for the character, and takes in one blank. -/
theorem unescape_code
    {c : Char}
    {rest : Text}
    (isAscii : c.toNat < 128)
    (ends : ∀ c ∈ rest.head?, isHexDigit c = false) :
    unescape (Nat.toDigits 16 c.toNat ++ rest) = ([c], dropBlank rest) := by
  have isCode := isCode_toDigits isAscii
  have isChar : charOfCode? c.toNat = some c := by
    unfold charOfCode?
    rw [if_pos, Char.ofNat_toNat]
    simp only [Bool.or_eq_true, decide_eq_true_eq]
    omega
  unfold unescape
  simp only [escapeDigits_append isCode.hex isCode.length (.inr ends)]
  rw [List.isEmpty_eq_false_iff.mpr isCode.nonempty, if_neg Bool.false_ne_true, isCode.number,
    isChar, List.drop_left]
  rfl

/-- A backslash hides a character that is no hexadecimal digit. -/
theorem unescape_cons
    {c : Char}
    (noDigit : isHexDigit c = false)
    (rest : Text) :
    unescape (c :: rest) = ([c], rest) := by
  have nothing : escapeDigits (c :: rest) = [] := by
    unfold escapeDigits
    rw [List.take_succ_cons, List.takeWhile_cons_of_neg (Bool.eq_false_iff.mp noDigit)]
  unfold unescape
  simp only [nothing]
  rfl

theorem identifier_nil : identifier [] = ([], []) := by
  rw [identifier]

/-- What neither belongs to a name nor begins an escape ends an identifier. -/
theorem identifier_stop
    {c : Char}
    (noName : isNameChar c = false)
    (plain : c ≠ '\\')
    (rest : Text) :
    identifier (c :: rest) = ([], c :: rest) := by
  rw [identifier, if_neg plain, if_neg (Bool.eq_false_iff.mp noName)]

theorem identifier_backslash (rest : Text) :
    identifier ('\\' :: rest) =
      ((unescape rest).1 ++ (identifier (unescape rest).2).1,
        (identifier (unescape rest).2).2) := by
  rw [identifier]
  rfl

theorem identifier_lone : identifier ['\\'] = ([], []) := by
  have nothing : unescape [] = ([], []) := rfl
  rw [identifier_backslash, nothing, identifier_nil]
  rfl

/-- A character that is written in one of the ways is read back. -/
theorem Writes.identifier_append
    {c : Char}
    {unit : Text}
    (writes : Writes c unit)
    (text : Text) :
    identifier (unit ++ text) = (c :: (identifier text).1, (identifier text).2) := by
  cases writes with
  | plain isName =>
      have noBackslash : c ≠ '\\' := by
        rintro rfl
        exact absurd isName (by decide)
      rw [List.singleton_append, identifier, if_neg noBackslash, if_pos isName]
  | escape noDigit _ =>
      rw [List.cons_append, List.singleton_append, identifier_backslash, unescape_cons noDigit]
      rfl
  | code isCoded =>
      have read := @unescape_code c (' ' :: text) (toNat_lt_of_isCoded isCoded)
        (by rintro digit ⟨⟩; rfl)
      unfold codeEscape
      rw [List.cons_append, List.append_assoc, List.singleton_append, identifier_backslash, read]
      rfl

/-- A name that is written in one of the ways is read back. -/
theorem Written.identifier_append
    {name text : Text}
    (written : Written name text)
    (more : Text) :
    identifier (text ++ more) = (name ++ (identifier more).1, (identifier more).2) := by
  induction written with
  | nil => rfl
  | @cons c name unit text writes _ inductionHypothesis =>
      rw [List.append_assoc, writes.identifier_append, inductionHypothesis]
      rfl

/-! ## Marks -/

/-- A character that stands in a written name only behind a backslash: no blank, and
neither part of a name nor a backslash. -/
def IsMark (c : Char) : Prop :=
  isNameChar c = false ∧ c ≠ '\\' ∧ c ≠ ' '

theorem isNameChar_of_mem_toDigits
    {c digit : Char}
    (isCoded : isControl c = true ∨ c.isDigit = true)
    (present : digit ∈ Nat.toDigits 16 c.toNat) :
    isNameChar digit = true := by
  have isHex := (isCode_toDigits (toNat_lt_of_isCoded isCoded)).hex digit present
  unfold isNameChar
  rw [isAlphanum_of_isHexDigit isHex]
  rfl

/-- A mark in a written character is that character, behind a backslash. -/
theorem Writes.eq_escape_of_mark
    {c mark : Char}
    {unit front back : Text}
    (writes : Writes c unit)
    (isMark : IsMark mark)
    (split : unit = front ++ mark :: back) :
    c = mark ∧ front = ['\\'] ∧ back = [] := by
  obtain ⟨noName, noBackslash, noSpace⟩ := isMark
  cases writes with
  | plain isName =>
      cases front with
      | nil =>
          obtain ⟨rfl, -⟩ := List.cons.inj split
          exact absurd isName (Bool.eq_false_iff.mp noName)
      | cons other others => simp at split
  | escape _ _ =>
      cases front with
      | nil => exact absurd (List.cons.inj split).1.symm noBackslash
      | cons first others =>
          obtain ⟨rfl, later⟩ := List.cons.inj split
          cases others with
          | nil =>
              obtain ⟨rfl, rfl⟩ := List.cons.inj later
              exact ⟨rfl, rfl, rfl⟩
          | cons second more => simp at later
  | code isCoded =>
      have present : mark ∈ codeEscape c := split ▸ List.mem_append_right _ List.mem_cons_self
      unfold codeEscape at present
      rcases List.mem_cons.mp present with isBackslash | later
      · exact absurd isBackslash noBackslash
      rcases List.mem_append.mp later with isDigit | isSpace
      · exact absurd (isNameChar_of_mem_toDigits isCoded isDigit) (Bool.eq_false_iff.mp noName)
      · exact absurd (List.mem_singleton.mp isSpace) noSpace

/-- A written name divides at each of its marks. -/
theorem Written.exists_of_mark
    {name text front back : Text}
    {mark : Char}
    (written : Written name text)
    (isMark : IsMark mark)
    (split : text = front ++ mark :: back) :
    ∃ before after beforeText, name = before ++ mark :: after ∧
      front = beforeText ++ ['\\'] ∧ Written before beforeText ∧ Written after back := by
  induction written generalizing front with
  | nil => exact absurd split (by simp)
  | @cons c name unit text writes later inductionHypothesis =>
      rcases List.append_eq_append_iff.mp split with ⟨more, rfl, rest⟩ | ⟨more, rfl, rest⟩
      · obtain ⟨before, after, beforeText, rfl, rfl, first, second⟩ := inductionHypothesis rest
        exact ⟨c :: before, after, unit ++ beforeText, rfl, (List.append_assoc ..).symm,
          .cons writes first, second⟩
      · cases more with
        | nil =>
            obtain ⟨before, after, beforeText, rfl, nothing, first, second⟩ :=
              @inductionHypothesis [] rest.symm
            exact absurd nothing (by simp)
        | cons first others =>
            obtain ⟨rfl, rfl⟩ := List.cons.inj rest
            obtain ⟨rfl, rfl, rfl⟩ := writes.eq_escape_of_mark isMark rfl
            exact ⟨[], name, [], rfl, rfl, .nil, later⟩

/-- A written name with more behind it divides at each mark: in the name, or behind it. -/
theorem Written.cases_of_mark
    {name text more front back : Text}
    {mark : Char}
    (written : Written name text)
    (isMark : IsMark mark)
    (split : text ++ more = front ++ mark :: back) :
    (∃ before after beforeText afterText, name = before ++ mark :: after ∧
        front = beforeText ++ ['\\'] ∧ back = afterText ++ more ∧
          Written before beforeText ∧ Written after afterText) ∨
      ∃ between, front = text ++ between ∧ more = between ++ mark :: back := by
  rcases List.append_eq_append_iff.mp split with ⟨between, rfl, rest⟩ | ⟨inside, rfl, rest⟩
  · exact .inr ⟨between, rfl, rest⟩
  · cases inside with
    | nil => exact .inr ⟨[], by simp, rest.symm⟩
    | cons first others =>
        obtain ⟨rfl, rfl⟩ := List.cons.inj rest
        obtain ⟨before, after, beforeText, isName, isFront, first, second⟩ :=
          written.exists_of_mark isMark rfl
        exact .inl ⟨before, after, beforeText, others, isName, isFront, rfl, first, second⟩

/-! ## Ends -/

/-- A name without the space at its end, if it has one there. -/
def withoutLastSpace (name : Text) : Text :=
  if name.getLast? = some ' ' then name.dropLast else name

theorem Written.eq_unit
    {c : Char}
    {text : Text}
    (written : Written [c] text) :
    Writes c text := by
  cases written with
  | cons writes later =>
      cases later with
      | nil => rwa [List.append_nil]

theorem isSpace_of_isNameChar
    {c : Char}
    (isName : isNameChar c = true) :
    Lexer.isSpace c = false := by
  refine Bool.eq_false_iff.mpr fun space => ?_
  simp only [Lexer.isSpace, Bool.or_eq_true, beq_iff_eq] at space
  rcases space with (((rfl | rfl) | rfl) | rfl) | rfl <;> exact absurd isName (by decide)

theorem isSpace_of_isControl
    {c : Char}
    (noControl : isControl c = false)
    (noSpace : c ≠ ' ') :
    Lexer.isSpace c = false := by
  refine Bool.eq_false_iff.mpr fun space => ?_
  simp only [Lexer.isSpace, Bool.or_eq_true, beq_iff_eq] at space
  rcases space with (((rfl | rfl) | rfl) | rfl) | rfl
  · exact noSpace rfl
  all_goals exact absurd noControl (by decide)

/-- Without the spaces at its end, a written name is read back but for a space at the end
of the name itself: its backslash is left behind. -/
structure Trims (name text : Text) (body pad : Text) : Prop where
  split : text = body ++ pad
  spaces : ∀ c ∈ pad, Lexer.isSpace c = true
  ends : ∀ c ∈ body.getLast?, Lexer.isSpace c = false
  reads : identifier body = (withoutLastSpace name, [])

theorem withoutLastSpace_append (front : Text) (c : Char) :
    withoutLastSpace (front ++ [c]) = front ++ withoutLastSpace [c] := by
  unfold withoutLastSpace
  rw [List.getLast?_concat, List.getLast?_singleton, List.dropLast_concat,
    List.dropLast_singleton]
  split
  · exact (List.append_nil front).symm
  · rfl

theorem withoutLastSpace_singleton
    {c : Char}
    (noSpace : c ≠ ' ') :
    withoutLastSpace [c] = [c] :=
  if_neg fun same => noSpace (Option.some.inj same)

/-- Whatever stands before the last character is read back as well. -/
theorem Trims.behind
    {c : Char}
    {front frontText unit body pad : Text}
    (trims : Trims [c] unit body pad)
    (nonempty : body ≠ [])
    (written : Written front frontText) :
    Trims (front ++ [c]) (frontText ++ unit) (frontText ++ body) pad := by
  refine ⟨by rw [trims.split, List.append_assoc], trims.spaces, ?_, ?_⟩
  · rw [List.getLast?_append_of_ne_nil _ nonempty]
    exact trims.ends
  · rw [written.identifier_append, trims.reads, withoutLastSpace_append]

theorem Writes.exists_trims
    {c : Char}
    {unit : Text}
    (writes : Writes c unit) :
    ∃ body pad, body ≠ [] ∧ Trims [c] unit body pad := by
  have whole := writes.identifier_append []
  rw [List.append_nil, identifier_nil] at whole
  cases writes with
  | plain isName =>
      have noSpace : c ≠ ' ' := by
        rintro rfl
        exact absurd isName (by decide)
      refine ⟨[c], [], List.cons_ne_nil _ _, (List.append_nil _).symm, nofun, ?_, ?_⟩
      · rintro last ⟨⟩
        exact isSpace_of_isNameChar isName
      · rw [whole, withoutLastSpace_singleton noSpace]
  | escape noDigit noControl =>
      by_cases isSpace : c = ' '
      · subst isSpace
        refine ⟨['\\'], [' '], List.cons_ne_nil _ _, rfl, List.forall_mem_singleton.mpr rfl,
          ?_, ?_⟩
        · rintro last ⟨⟩
          rfl
        · rw [identifier_backslash]
          have nothing : unescape [] = ([], []) := rfl
          rw [nothing, identifier_nil]
          rfl
      · refine ⟨['\\', c], [], List.cons_ne_nil _ _, (List.append_nil _).symm, nofun, ?_, ?_⟩
        · rintro last ⟨⟩
          exact isSpace_of_isControl noControl isSpace
        · rw [whole, withoutLastSpace_singleton isSpace]
  | code isCoded =>
      have isCode := isCode_toDigits (toNat_lt_of_isCoded isCoded)
      have noSpace : c ≠ ' ' := by
        rintro rfl
        exact absurd isCoded (by decide)
      have read := @unescape_code c [] (toNat_lt_of_isCoded isCoded) nofun
      rw [List.append_nil] at read
      refine ⟨'\\' :: Nat.toDigits 16 c.toNat, [' '], List.cons_ne_nil _ _, rfl,
        List.forall_mem_singleton.mpr rfl, ?_, ?_⟩
      · intro last isLast
        rw [← List.singleton_append, List.getLast?_append_of_ne_nil _ isCode.nonempty] at isLast
        exact isSpace_of_isNameChar
          (isNameChar_of_mem_toDigits isCoded (List.mem_of_getLast? isLast))
      · have nothing : dropBlank [] = [] := rfl
        rw [identifier_backslash, read, nothing, identifier_nil,
          withoutLastSpace_singleton noSpace]
        rfl

/-- What a written name is without the spaces at its end. -/
theorem Written.exists_trims
    {name text : Text}
    (written : Written name text) :
    ∃ body pad, Trims name text body pad := by
  rcases List.eq_nil_or_concat name with rfl | ⟨front, c, rfl⟩
  · cases written with
    | nil => exact ⟨[], [], rfl, nofun, nofun, identifier_nil⟩
  · rw [List.concat_eq_append] at written ⊢
    obtain ⟨frontText, unit, rfl, first, second⟩ := written.exists_append
    obtain ⟨body, pad, nonempty, trims⟩ := second.eq_unit.exists_trims
    exact ⟨frontText ++ body, pad, trims.behind nonempty first⟩

end Selector
end StyleTypings
