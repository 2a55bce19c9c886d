import StyleTypings.Proofs.Classes.Writing
import StyleTypings.Proofs.Stylesheet.Bare

/-!
# Which escaped names are exported

A rule whose selector is the class of a serialized name exports just that name, unless
the name has braces or quotes, a semicolon outside parentheses or a space at its end:
lexing knows no escapes outside strings, so these characters mean the same behind a
backslash, and the spaces at the end of a selector are left out even if one is escaped.
-/

namespace StyleTypings

open Lexer StyleTypings.Parser

namespace Selector

/-! ## Written names as texts -/

theorem not_shapes_of_isNameChar
    {c : Char}
    (isName : isNameChar c = true) :
    ¬ Shapes c := by
  rintro (rfl | rfl | rfl | rfl | rfl) <;> exact absurd isName (by decide)

theorem not_shapes_of_isControl
    {c : Char}
    (isControl : isControl c = true) :
    ¬ Shapes c := by
  rintro (rfl | rfl | rfl | rfl | rfl) <;> exact absurd isControl (by decide)

theorem not_shapes_of_mem_codeEscape
    {c other : Char}
    (isCoded : isControl c = true ∨ c.isDigit = true)
    (present : other ∈ codeEscape c) :
    ¬ Shapes other := by
  unfold codeEscape at present
  rcases List.mem_cons.mp present with rfl | later
  · rintro (same | same | same | same | same) <;> exact absurd same (by decide)
  · rcases List.mem_append.mp later with isDigit | isSpace
    · exact not_shapes_of_isNameChar (isNameChar_of_mem_toDigits isCoded isDigit)
    · obtain rfl := List.mem_singleton.mp isSpace
      exact not_shapes_of_isSpace rfl

/-- A prelude takes in a written character as it does the character. -/
theorem Writes.carried_append
    {c : Char}
    {unit : Text}
    (writes : Writes c unit)
    (depth : Nat)
    (rest : Text) :
    Carried depth (unit ++ rest) ↔ Carried depth (c :: rest) := by
  cases writes with
  | plain => exact Iff.rfl
  | escape =>
      refine carried_cons_of_not_shapes ?_ depth (c :: rest)
      rintro (same | same | same | same | same) <;> exact absurd same (by decide)
  | code isCoded =>
      have noShape : ¬ Shapes c := isCoded.elim not_shapes_of_isControl fun isDigit =>
        not_shapes_of_isNameChar (by simp [isNameChar, Char.isAlphanum, isDigit])
      rw [carried_append_of_not_shapes fun other => not_shapes_of_mem_codeEscape isCoded,
        carried_cons_of_not_shapes noShape]

theorem Written.carried_append
    {name text : Text}
    (written : Written name text)
    (depth : Nat)
    (rest : Text) :
    Carried depth (text ++ rest) ↔ Carried depth (name ++ rest) := by
  induction written generalizing depth with
  | nil => exact Iff.rfl
  | @cons c name unit text writes _ inductionHypothesis =>
      rw [List.append_assoc, writes.carried_append, List.cons_append, Carried, Carried,
        inductionHypothesis]

/-- The class of a name as it is written, with a character behind it. -/
def classText (text : Text) (last : Char) : Text :=
  '.' :: (text ++ [last])

theorem getLast?_classText (text : Text) (last : Char) :
    (classText text last).getLast? = some last := by
  unfold classText
  rw [← List.cons_append, List.getLast?_concat]

theorem classify_dot (rest : Text) : (classify .css 0 '.' rest).1 = .text := rfl

theorem Written.carried_classText
    {name text : Text}
    {last : Char}
    (written : Written name text)
    (neutral : ¬ Shapes last) :
    Carried 0 (classText text last) ↔ Carried 0 name := by
  have dot : ¬ Shapes '.' := by
    rintro (same | same | same | same | same) <;> exact absurd same (by decide)
  unfold classText
  rw [carried_cons_of_not_shapes dot, written.carried_append,
    carried_append_of_not_shapes_behind (List.forall_mem_singleton.mpr neutral)]

/-- The class of a name without quotes is bare. -/
theorem Written.bare_classText
    {name text : Text}
    {last : Char}
    (written : Written name text)
    (quotes : '"' ∉ name ∧ '\'' ∉ name)
    (isEnd : last = ' ' ∨ last = '\\') :
    Bare (classText text last) := by
  have noMark {mark : Char} (isMark : IsMark mark) : mark ∉ [last] := by
    intro present
    obtain rfl := List.mem_singleton.mp present
    exact isEnd.elim isMark.2.2 isMark.2.1
  have absent {mark : Char} (isMark : IsMark mark) (noDot : mark ≠ '.') (noName : mark ∉ name) :
      mark ∉ classText text last := by
    intro present
    rcases List.mem_cons.mp present with isDot | behind
    · exact noDot isDot
    rcases List.mem_append.mp behind with inside | isLast
    · obtain ⟨front, back, split⟩ := List.append_of_mem inside
      obtain ⟨before, after, -, rfl, -⟩ := written.exists_of_mark isMark split
      exact noName (by simp)
    · exact noMark isMark isLast
  refine ⟨⟨absent ⟨rfl, by decide, by decide⟩ (by decide) quotes.1,
    absent ⟨rfl, by decide, by decide⟩ (by decide) quotes.2⟩, fun front back split => ?_⟩
  -- A star stands behind a backslash, and so behind no slash.
  have isMark : IsMark '*' := ⟨rfl, by decide, by decide⟩
  cases front with
  | nil => exact absurd (List.cons.inj split).1 (by decide)
  | cons first front =>
      have star : text ++ [last] = (front ++ ['/']) ++ '*' :: back := by
        rw [(List.cons.inj split).2, List.append_assoc]
        rfl
      rcases written.cases_of_mark isMark star with
        ⟨_, _, beforeText, _, -, ends, -⟩ | ⟨between, -, isLast⟩
      · have same := congrArg List.getLast? ends
        rw [List.getLast?_concat, List.getLast?_concat] at same
        exact absurd (Option.some.inj same) (by decide)
      · exact noMark isMark (isLast ▸ List.mem_append_right _ List.mem_cons_self)

/-- The rule of a class as it is written. -/
def ruleText (text : Text) : Text :=
  '.' :: (text ++ [' ', '{', '}'])

theorem ruleText_eq (text : Text) : ruleText text = classText text ' ' ++ "\x7b\x7d" := by
  change '.' :: (text ++ ([' '] ++ ['{', '}'])) = '.' :: ((text ++ [' ']) ++ ['{', '}'])
  rw [List.append_assoc]

/-! ## The class of a written name -/

/-- The classes of a class that is read to its end: the class, if it begins one. -/
theorem classes_dot
    {body name : Text}
    (reads : identifier body = (name, []))
    (noDigit : ∀ c ∈ body.head?, c.isDigit = false) :
    classes ('.' :: body) = if name = [] then [] else [name] := by
  have noDigitHead : body.head?.any Char.isDigit = false := by
    cases body with
    | nil => rfl
    | cons c rest => exact noDigit c rfl
  have nothing (scopes : Scopes) : classesFrom scopes [] = [] := by
    rw [classesFrom]
  unfold classes
  rw [classesFrom, if_pos rfl]
  simp only [beginsClass, reads, noDigitHead, nothing]
  cases name with
  | nil => rfl
  | cons c rest => rfl

/-- The class of a written name without the spaces at its end. -/
theorem Written.classes_classText
    {name text : Text}
    (written : Written name text)
    (noDigit : ∀ c ∈ text.head?, c.isDigit = false) :
    classes (Text.dropEndWhile isSpace (classText text ' ')) =
      if withoutLastSpace name = [] then [] else [withoutLastSpace name] := by
  obtain ⟨body, pad, trims⟩ := written.exists_trims
  have split : classText text ' ' = ('.' :: body) ++ (pad ++ [' ']) := by
    unfold classText
    rw [trims.split, List.append_assoc]
    rfl
  have trimmed : Text.dropEndWhile isSpace (classText text ' ') = '.' :: body := by
    rw [split]
    refine dropEndWhile_append ?_ ?_
    · intro c present
      rcases List.mem_append.mp present with inside | isLast
      · exact trims.spaces c inside
      · exact List.mem_singleton.mp isLast ▸ rfl
    · intro c isLast
      cases body with
      | nil => exact Option.some.inj isLast ▸ rfl
      | cons first rest => exact trims.ends c isLast
  rw [trimmed, classes_dot trims.reads]
  intro c isFirst
  refine noDigit c ?_
  rw [trims.split]
  cases body with
  | nil => exact absurd isFirst nofun
  | cons first rest => exact isFirst

/-- The rule of a written name that a prelude takes in: the class by itself, but for a
space at its end. -/
theorem Written.parse_rule
    {name text : Text}
    (written : Written name text)
    (quotes : '"' ∉ name ∧ '\'' ∉ name)
    (carried : Carried 0 name)
    (noDigit : ∀ c ∈ text.head?, c.isDigit = false) :
    (parse (ruleText text)).faults = [] ∧
      (parse (ruleText text)).sheet.exported =
        if withoutLastSpace name = [] then [] else [withoutLastSpace name] := by
  have bare := written.bare_classText quotes (.inl rfl)
  have shown := written.classes_classText noDigit
  obtain ⟨selectorSpan, span, parsed⟩ : ∃ selectorSpan span,
      parse (classText text ' ' ++ "\x7b\x7d") =
        ⟨⟨[.rule (Text.dropEndWhile isSpace (classText text ' ')) selectorSpan span []], _⟩, []⟩ :=
    parse_append_braces bare
      ((written.carried_classText (not_shapes_of_isSpace rfl)).mpr carried) (classify_dot _)
      (ends_of_getLast? bare (getLast?_classText text ' ') (.inl rfl))
  rw [ruleText_eq, parsed]
  refine ⟨rfl, ?_⟩
  unfold Stylesheet.exported
  rw [Exported.ofForest, Exported.ofNode, shown, Exported.ofForest, List.append_nil,
    List.append_nil]
  split <;> rfl

/-! ## Quotes -/

theorem stringEnd_append_of_plain
    {quote : Char}
    {front : Text}
    (plain : ∀ c ∈ front, c ≠ '\\' ∧ c ≠ '\n' ∧ c ≠ quote)
    (rest : Text) :
    (stringEnd quote (front ++ rest)).2 = (stringEnd quote rest).2 := by
  induction front with
  | nil => rfl
  | cons c others inductionHypothesis =>
      obtain ⟨noBackslash, noFeed, noQuote⟩ := plain c List.mem_cons_self
      rw [List.cons_append, stringEnd_cons noBackslash, if_neg noFeed, if_neg noQuote]
      exact inductionHypothesis fun other present => plain other (List.mem_cons_of_mem c present)

theorem stringEnd_escape (quote c : Char) (rest : Text) :
    (stringEnd quote ('\\' :: c :: rest)).2 = (stringEnd quote rest).2 := by
  rw [stringEnd]

/-- A quote. -/
def IsQuote (c : Char) : Prop :=
  c = '"' ∨ c = '\''

theorem IsQuote.isMark
    {quote : Char}
    (isQuote : IsQuote quote) :
    IsMark quote := by
  rcases isQuote with rfl | rfl <;> exact ⟨rfl, by decide, by decide⟩

theorem plain_of_isNameChar
    {quote c : Char}
    (isQuote : IsQuote quote)
    (isName : isNameChar c = true) :
    c ≠ '\\' ∧ c ≠ '\n' ∧ c ≠ quote := by
  refine ⟨?_, ?_, ?_⟩
  · rintro rfl
    exact absurd isName (by decide)
  · rintro rfl
    exact absurd isName (by decide)
  · rintro rfl
    exact absurd isName (Bool.eq_false_iff.mp isQuote.isMark.1)

/-- A string goes on over a written character. -/
theorem Writes.stringEnd_append
    {quote c : Char}
    {unit : Text}
    (writes : Writes c unit)
    (isQuote : IsQuote quote)
    (rest : Text) :
    (stringEnd quote (unit ++ rest)).2 = (stringEnd quote rest).2 := by
  cases writes with
  | plain isName =>
      exact stringEnd_append_of_plain
        (List.forall_mem_singleton.mpr (plain_of_isNameChar isQuote isName)) rest
  | escape => exact stringEnd_escape quote c rest
  | code isCoded =>
      obtain ⟨digit, digits, split⟩ := List.exists_cons_of_ne_nil
        (isCode_toDigits (toNat_lt_of_isCoded isCoded)).nonempty
      unfold codeEscape
      rw [split, List.cons_append, List.cons_append, List.cons_append, stringEnd_escape]
      refine stringEnd_append_of_plain (fun other present => ?_) rest
      rcases List.mem_append.mp present with isDigit | isSpace
      · refine plain_of_isNameChar isQuote (isNameChar_of_mem_toDigits isCoded ?_)
        rw [split]
        exact List.mem_cons_of_mem digit isDigit
      · obtain rfl := List.mem_singleton.mp isSpace
        exact ⟨by decide, by decide, isQuote.isMark.2.2.symm⟩

/-- A string goes on over a written name. -/
theorem Written.stringEnd_append
    {quote : Char}
    {name text : Text}
    (written : Written name text)
    (isQuote : IsQuote quote)
    (rest : Text) :
    (stringEnd quote (text ++ rest)).2 = (stringEnd quote rest).2 := by
  induction written with
  | nil => rfl
  | cons writes _ inductionHypothesis =>
      rw [List.append_assoc, writes.stringEnd_append isQuote, inductionHypothesis]

/-- A name with quotes divides at the first of them. -/
theorem exists_quote
    {name : Text}
    (quoted : ¬ ('"' ∉ name ∧ '\'' ∉ name)) :
    ∃ before quote after, name = before ++ quote :: after ∧ IsQuote quote ∧
      '"' ∉ before ∧ '\'' ∉ before := by
  induction name with
  | nil => exact absurd ⟨List.not_mem_nil, List.not_mem_nil⟩ quoted
  | cons c rest inductionHypothesis =>
      by_cases isQuote : IsQuote c
      · exact ⟨[], c, rest, rfl, isQuote, List.not_mem_nil, List.not_mem_nil⟩
      · obtain ⟨noDouble, noSingle⟩ := not_or.mp isQuote
        have later : ¬ ('"' ∉ rest ∧ '\'' ∉ rest) := by
          rintro ⟨noDoubles, noSingles⟩
          refine quoted ⟨?_, ?_⟩
          · exact fun present => (List.mem_cons.mp present).elim (noDouble ·.symm) noDoubles
          · exact fun present => (List.mem_cons.mp present).elim (noSingle ·.symm) noSingles
        obtain ⟨before, quote, after, rfl, isQuote, noDoubles, noSingles⟩ :=
          inductionHypothesis later
        refine ⟨c :: before, quote, after, rfl, isQuote, ?_, ?_⟩
        · exact fun present => (List.mem_cons.mp present).elim (noDouble ·.symm) noDoubles
        · exact fun present => (List.mem_cons.mp present).elim (noSingle ·.symm) noSingles

/-- A quote is written behind a backslash. -/
theorem IsQuote.eq_escape
    {quote : Char}
    {unit : Text}
    (isQuote : IsQuote quote)
    (writes : Writes quote unit) :
    unit = ['\\', quote] := by
  cases writes with
  | plain isName => exact absurd isName (Bool.eq_false_iff.mp isQuote.isMark.1)
  | escape => rfl
  | code isCoded => rcases isQuote with rfl | rfl <;> exact absurd isCoded (by decide)

/-- A quote in a name begins a string that does not end. -/
theorem Written.faults_of_quote
    {name text : Text}
    (written : Written name text)
    (quoted : ¬ ('"' ∉ name ∧ '\'' ∉ name)) :
    (parse (ruleText text)).faults ≠ [] := by
  obtain ⟨before, quote, after, rfl, isQuote, noQuotes⟩ := exists_quote quoted
  obtain ⟨beforeText, _, rfl, first, second⟩ := written.exists_append
  cases second with
  | @cons _ _ unit afterText writes later =>
      obtain rfl := isQuote.eq_escape writes
      have split : ruleText (beforeText ++ (['\\', quote] ++ afterText)) =
          classText beforeText '\\' ++ quote :: (afterText ++ [' ', '{', '}']) := by
        simp [ruleText, classText]
      have bare := first.bare_classText noQuotes (.inr rfl)
      have lexed := lexemes_append_of_special
        (ends_of_getLast? bare (getLast?_classText beforeText '\\') (.inr rfl))
        (show ∀ c ∈ (quote :: (afterText ++ [' ', '{', '}'])).head?,
            isSpecial c = true ∧ isSpace c = false by
          rintro c ⟨⟩
          rcases isQuote with rfl | rfl <;> exact ⟨rfl, rfl⟩)
      have unclosed : (stringEnd quote (afterText ++ [' ', '{', '}'])).2 = false := by
        rw [later.stringEnd_append isQuote]
        rcases isQuote with rfl | rfl <;> rfl
      have isInvalid : (classify .css 0 quote (afterText ++ [' ', '{', '}'])).1 = .invalid := by
        have found : classify .css 0 quote (afterText ++ [' ', '{', '}']) =
            (if (stringEnd quote (afterText ++ [' ', '{', '}'])).2 then .string else .invalid,
              (stringEnd quote (afterText ++ [' ', '{', '}'])).1) := by
          rcases isQuote with rfl | rfl <;> rfl
        rw [found, unclosed]
        rfl
      rw [split]
      intro faultless
      rw [lexemes_cons quote] at lexed
      have present : ⟨_, quote :: _⟩ ∈ lexemes .css 0
          (classText beforeText '\\' ++ quote :: (afterText ++ [' ', '{', '}'])) :=
        lexed ▸ List.mem_append_right _ List.mem_cons_self
      rw [← Lexeme.map_lexeme_place 0 (lexemes .css 0 _)] at present
      obtain ⟨token, among, same⟩ := List.mem_map.mp present
      have isPlain := isPlain_of_faults_parse faultless token among
      rw [show token.kind = _ from congrArg Lexeme.kind same, isInvalid] at isPlain
      exact absurd isPlain nofun

end Selector
end StyleTypings
