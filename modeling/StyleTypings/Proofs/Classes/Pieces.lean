import StyleTypings.Proofs.Classes.Gaps

/-!
# The structure of a selector

Scoping goes by the classes of a selector, its commas, its parentheses, and the markers
`:global` and `:local`, which stand by themselves or in front of a parenthesis. The rest is
passed over: ids, other pseudo-classes, strings, attribute tests, numbers and escaped
characters. `Consists` relates the text of a selector to its structure; it leaves out no text
but those in which something is not closed, comments, and markers by themselves inside
parentheses.

The local classes of a structure are said without a stack: inside parentheses the scope is
that of the parentheses, and outside it is set by the last marker behind the last comma.
-/

namespace StyleTypings
namespace Selector

/-- What scoping goes by in a selector. -/
inductive Piece
  /-- A class, by its name without escapes. -/
  | className (name : Text)
  /-- `:global` or `:local` by itself. -/
  | marker (isGlobal : Bool)
  | comma
  /-- Parentheses and what they hold, with the scope that a marker in front of them sets. -/
  | parens (scope : Option Bool) (body : List Piece)

/-! ## Local classes -/

namespace Piece

/-- The scope that a marker by itself sets. -/
def marker? : Piece → Option Bool
  | .marker isGlobal => some isGlobal
  | _ => none

/-- Whether a piece is a comma. -/
def isComma : Piece → Bool
  | .comma => true
  | _ => false

mutual

/-- The local classes of a piece, given the scope around it. -/
def localsIn (isGlobal : Bool) : Piece → List Text
  | .className name => if isGlobal ∨ name = [] then [] else [name]
  | .parens scope body => localsInAll (scope.getD isGlobal) body
  | _ => []

/-- The local classes of what parentheses of a scope hold. -/
def localsInAll (isGlobal : Bool) : List Piece → List Text
  | [] => []
  | piece :: rest => piece.localsIn isGlobal ++ localsInAll isGlobal rest

end

/-- Whether the scope outside parentheses is global behind some pieces: the last marker
behind the last comma says so, and without one the scope is local. -/
def bareScope (before : List Piece) : Bool :=
  ((before.reverse.takeWhile fun piece => !piece.isComma).findSome? marker?).getD false

/-- The local classes of pieces outside parentheses, given those before them. -/
def localsBehind (before : List Piece) : List Piece → List Text
  | [] => []
  | piece :: rest =>
      piece.localsIn (bareScope before) ++ localsBehind (before ++ [piece]) rest

/-- The local classes of a selector's pieces, in order and with repetitions. -/
def locals (pieces : List Piece) : List Text :=
  localsBehind [] pieces

theorem bareScope_concat (before : List Piece) (piece : Piece) :
    bareScope (before ++ [piece]) =
      if piece.isComma then false else piece.marker?.getD (bareScope before) := by
  unfold bareScope
  rw [List.reverse_append, List.reverse_singleton, List.singleton_append]
  cases piece <;> rfl

end Piece

/-! ## The parts of a selector's text -/

/-- The scope that the name of a pseudo-class sets, in upper or lower case. -/
def markerOf? (name : Text) : Option Bool :=
  if name.equalsIgnoringCase "global" then
    some true
  else if name.equalsIgnoringCase "local" then
    some false
  else
    none

/-- A text that begins with the identifier of a name: what is behind it cannot be part of
it, and no escape in it is cut off. -/
inductive Spelled : Text → Text → Text → Prop
  | stop
      {rest : Text}
      (ends : ∀ c ∈ rest.head?, isNameChar c = false ∧ c ≠ '\\') :
      Spelled rest [] rest
  | char
      {c : Char}
      {text name rest : Text}
      (isName : isNameChar c = true)
      (later : Spelled text name rest) :
      Spelled (c :: text) (c :: name) rest
  | hidden
      {c : Char}
      {text name rest : Text}
      (noDigit : isHexDigit c = false)
      (later : Spelled text name rest) :
      Spelled ('\\' :: c :: text) (c :: name) rest
  | code
      {digits text name rest : Text}
      (hex : ∀ digit ∈ digits, isHexDigit digit = true)
      (nonempty : digits ≠ [])
      (atMost : digits.length ≤ 6)
      (whole : digits.length = 6 ∨ ∀ c ∈ text.head?, isHexDigit c = false)
      (later : Spelled (dropBlank text) name rest) :
      Spelled ('\\' :: (digits ++ text))
        ((charOfCode? (hexNumber digits)).toList ++ name) rest

/-- A text that begins with the rest of a string and the quote that closes it. -/
inductive Quoted (quote : Char) : Text → Text → Prop
  | close (rest : Text) : Quoted quote (quote :: rest) rest
  | char
      {c : Char}
      {text rest : Text}
      (plain : c ≠ '\\')
      (inside : c ≠ quote)
      (later : Quoted quote text rest) :
      Quoted quote (c :: text) rest
  | hidden
      (c : Char)
      {text rest : Text}
      (later : Quoted quote text rest) :
      Quoted quote ('\\' :: c :: text) rest

/-- A text that begins with the rest of an attribute test and the bracket that closes it.
A test holds no other test. -/
inductive Tested : Text → Text → Prop
  | close (rest : Text) : Tested (']' :: rest) rest
  | char
      {c : Char}
      {text rest : Text}
      (other : c ∉ ['"', '\'', '\\', ']'])
      (later : Tested text rest) :
      Tested (c :: text) rest
  | hidden
      (c : Char)
      {text rest : Text}
      (later : Tested text rest) :
      Tested ('\\' :: c :: text) rest
  | quoted
      {quote : Char}
      {text middle rest : Text}
      (isQuote : quote = '"' ∨ quote = '\'')
      (string : Quoted quote text middle)
      (later : Tested middle rest) :
      Tested (quote :: text) rest

/-- Whether a class, and not a number or nothing, stands behind a dot. -/
def BeginsClass (text : Text) : Prop :=
  ∃ c ∈ text.head?, c = '\\' ∨ isNameChar c = true ∧ c.isDigit = false

/-- The characters that mean something outside strings and attribute tests. -/
def leads : List Char :=
  ['.', '#', '[', '"', '\'', ':', '(', ')', ',', '\\']

/-- A text that begins with something that scoping does not go by. -/
inductive Skips : Text → Text → Prop
  | other
      {c : Char}
      {text : Text}
      (isOther : c ∉ leads)
      (noComment : ¬['/', '*'] <+: c :: text) :
      Skips (c :: text) text
  | string
      {quote : Char}
      {text rest : Text}
      (isQuote : quote = '"' ∨ quote = '\'')
      (string : Quoted quote text rest) :
      Skips (quote :: text) rest
  | test
      {text rest : Text}
      (test : Tested text rest) :
      Skips ('[' :: text) rest
  | id
      {text name rest : Text}
      (spelled : Spelled text name rest) :
      Skips ('#' :: text) rest
  | escaped
      {text name rest : Text}
      (spelled : Spelled ('\\' :: text) name rest) :
      Skips ('\\' :: text) rest
  | number
      {text digits rest : Text}
      (noClass : ¬BeginsClass text)
      (spelled : Spelled text digits rest) :
      Skips ('.' :: text) rest
  | pseudo
      {text name rest : Text}
      (spelled : Spelled (dropColon text) name rest)
      (noMarker : markerOf? name = none)
      (bare : rest.head? ≠ some '(') :
      Skips (':' :: text) rest

/-- A text that begins with some pieces, up to its end or to a parenthesis that closes.
Markers stand by themselves only outside parentheses. -/
inductive Consists : Bool → Text → List Piece → Text → Prop
  | stop
      {isOutside : Bool}
      {rest : Text}
      (ends : ∀ c ∈ rest.head?, c = ')') :
      Consists isOutside rest [] rest
  | skip
      {isOutside : Bool}
      {text middle rest : Text}
      {pieces : List Piece}
      (skips : Skips text middle)
      (later : Consists isOutside middle pieces rest) :
      Consists isOutside text pieces rest
  | className
      {isOutside : Bool}
      {text name middle rest : Text}
      {pieces : List Piece}
      (begins : BeginsClass text)
      (spelled : Spelled text name middle)
      (later : Consists isOutside middle pieces rest) :
      Consists isOutside ('.' :: text) (.className name :: pieces) rest
  | marker
      {text name middle rest : Text}
      {isGlobal : Bool}
      {pieces : List Piece}
      (spelled : Spelled (dropColon text) name middle)
      (isMarker : markerOf? name = some isGlobal)
      (bare : middle.head? ≠ some '(')
      (later : Consists true middle pieces rest) :
      Consists true (':' :: text) (.marker isGlobal :: pieces) rest
  | comma
      {isOutside : Bool}
      {text rest : Text}
      {pieces : List Piece}
      (later : Consists isOutside text pieces rest) :
      Consists isOutside (',' :: text) (.comma :: pieces) rest
  | function
      {isOutside : Bool}
      {text name inner middle rest : Text}
      {scope : Option Bool}
      {body pieces : List Piece}
      (spelled : Spelled (dropColon text) name ('(' :: inner))
      (isScope : markerOf? name = scope)
      (inside : Consists false inner body (')' :: middle))
      (later : Consists isOutside middle pieces rest) :
      Consists isOutside (':' :: text) (.parens scope body :: pieces) rest
  | parens
      {isOutside : Bool}
      {text middle rest : Text}
      {body pieces : List Piece}
      (inside : Consists false text body (')' :: middle))
      (later : Consists isOutside middle pieces rest) :
      Consists isOutside ('(' :: text) (.parens none body :: pieces) rest

/-- A selector with a structure: everything in it is closed, it has no comments, and inside
parentheses no marker stands by itself. -/
def IsWellNested (selector : Text) (pieces : List Piece) : Prop :=
  Consists true selector pieces []

/-! ## Scanning the parts -/

/-- An identifier is read as its name. -/
theorem Spelled.identifier_eq
    {text name rest : Text}
    (spelled : Spelled text name rest) :
    identifier text = (name, rest) := by
  induction spelled with
  | @stop rest ends =>
      cases rest with
      | nil => exact identifier_nil
      | cons c others => exact identifier_stop (ends c rfl).1 (ends c rfl).2 others
  | @char c text name rest isName later inductionHypothesis =>
      have plain : c ≠ '\\' := by
        rintro rfl
        exact absurd isName (by decide)
      rw [identifier, if_neg plain, if_pos isName, inductionHypothesis]
  | @hidden c text name rest noDigit later inductionHypothesis =>
      rw [identifier_backslash, unescape_cons noDigit, inductionHypothesis]
      rfl
  | @code digits text name rest hex nonempty atMost whole later inductionHypothesis =>
      have opened : unescape (digits ++ text) =
          ((charOfCode? (hexNumber digits)).toList, dropBlank text) := by
        unfold unescape
        simp only [escapeDigits_append hex atMost whole, List.drop_left,
          List.isEmpty_eq_false_iff.mpr nonempty, Bool.false_eq_true, if_false]
      rw [identifier_backslash, opened, inductionHypothesis]

theorem Quoted.afterString_eq
    {quote : Char}
    {text rest : Text}
    (isQuote : quote = '"' ∨ quote = '\'')
    (quoted : Quoted quote text rest) :
    afterString quote text = rest := by
  have plainQuote : quote ≠ '\\' := by
    rintro rfl
    exact absurd isQuote (by decide)
  induction quoted with
  | close rest => rw [afterString_cons plainQuote, if_pos rfl]
  | char plain inside later inductionHypothesis =>
      rw [afterString_cons plain, if_neg inside, inductionHypothesis]
  | hidden c later inductionHypothesis => rw [afterString, inductionHypothesis]

theorem Tested.afterAttribute_eq
    {text rest : Text}
    (tested : Tested text rest) :
    afterAttribute text = rest := by
  induction tested with
  | close rest =>
      rw [afterAttribute, if_neg (by decide), if_neg (by decide), if_pos rfl]
  | @char c text rest other later inductionHypothesis =>
      simp only [List.mem_cons, List.not_mem_nil, or_false, not_or] at other
      obtain ⟨noDouble, noSingle, plain, noBracket⟩ := other
      rw [afterAttribute, if_neg (not_or.mpr ⟨noDouble, noSingle⟩), if_neg plain,
        if_neg noBracket, inductionHypothesis]
  | hidden c later inductionHypothesis =>
      rw [afterAttribute, if_neg (by decide), if_pos rfl, List.drop_one, List.tail_cons,
        inductionHypothesis]
  | quoted isQuote string later inductionHypothesis =>
      rw [afterAttribute, if_pos isQuote, string.afterString_eq isQuote, inductionHypothesis]

theorem scopeOf?_eq_markerOf? (name : Text) : scopeOf? name = markerOf? name := by
  have isGlobal : Text.asciiLower "global" = "global".toList := by decide
  have isLocal : Text.asciiLower "local" = "local".toList := by decide
  unfold scopeOf? markerOf? Text.equalsIgnoringCase
  simp only [isGlobal, isLocal, beq_iff_eq]

theorem beginsClass_eq
    {text name rest : Text}
    (begins : BeginsClass text)
    (spelled : Spelled text name rest) :
    beginsClass text = !name.isEmpty := by
  obtain ⟨c, isFirst, shape⟩ := begins
  have noDigit : text.head?.any Char.isDigit = false := by
    rw [isFirst]
    rcases shape with rfl | ⟨-, noDigit⟩
    · rfl
    · exact noDigit
  unfold beginsClass
  rw [spelled.identifier_eq, noDigit, Bool.not_false, Bool.and_true]

theorem beginsClass_eq_false
    {text : Text}
    (noClass : ¬BeginsClass text) :
    beginsClass text = false := by
  unfold beginsClass
  cases text with
  | nil => rw [identifier_nil]; rfl
  | cons c rest =>
      by_cases isDigit : c.isDigit = true
      · rw [List.head?_cons, Option.any_some, isDigit, Bool.not_true, Bool.and_false]
      · have noDigit : c.isDigit = false := Bool.eq_false_iff.mpr isDigit
        have plain : c ≠ '\\' := fun same => noClass ⟨c, rfl, .inl same⟩
        have noName : isNameChar c = false :=
          Bool.eq_false_iff.mpr fun isName => noClass ⟨c, rfl, .inr ⟨isName, noDigit⟩⟩
        rw [identifier_stop noName plain]
        rfl

end Selector
end StyleTypings
