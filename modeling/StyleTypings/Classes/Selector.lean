import StyleTypings.Text.Blank

/-!
# Classes of a selector

A selector is read from left to right. Classes in a global scope are not
exported. A pseudo-class `:global` or `:local` followed by a parenthesis sets
the scope inside it; any other parenthesis keeps the scope around it. Without a
parenthesis it sets the scope for what follows: up to the closing parenthesis
inside parentheses, and up to the next comma outside.

Identifiers may hold escapes: a backslash hides one character, or stands with up
to six hexadecimal digits and one blank for the character of that code.
-/

namespace StyleTypings
namespace Selector

/-- A hexadecimal digit. -/
def isHexDigit (c : Char) : Bool :=
  c.isDigit || ('a' ≤ c && c ≤ 'f') || ('A' ≤ c && c ≤ 'F')

/-- The value of a hexadecimal digit. -/
def hexValue (c : Char) : Nat :=
  if c.isDigit then
    c.toNat - 48
  else if 'a' ≤ c then
    c.toNat - 87
  else
    c.toNat - 55

/-- The number that some hexadecimal digits denote. -/
def hexNumber (digits : Text) : Nat :=
  digits.foldl (fun value digit => 16 * value + hexValue digit) 0

/-- The character of a code, if the code is that of a character. -/
def charOfCode? (code : Nat) : Option Char :=
  if code < 0xD800 || (0xDFFF < code && code < 0x110000) then
    some (Char.ofNat code)
  else
    none

/-- A character that may stand in an identifier by itself: an ASCII letter or
digit, a hyphen, an underscore, and everything outside ASCII. -/
def isNameChar (c : Char) : Bool :=
  c.isAlphanum || c == '-' || c == '_' || 128 ≤ c.toNat

/-- The hexadecimal digits of an escape, at most six. -/
def escapeDigits (text : Text) : Text :=
  (text.take 6).takeWhile isHexDigit

/-- Drops one blank. -/
def dropBlank : Text → Text
  | [] => []
  | c :: rest => if Text.isBlank c then rest else c :: rest

theorem length_dropBlank_le (text : Text) :
    (dropBlank text).length ≤ text.length := by
  cases text with
  | nil => simp [dropBlank]
  | cons c rest =>
      simp only [dropBlank]
      split <;> simp

/-- What a backslash and the text after it stand for, and the text left. -/
def unescape (rest : Text) : Text × Text :=
  let digits := escapeDigits rest
  if digits.isEmpty then
    (rest.take 1, rest.drop 1)
  else
    ((charOfCode? (hexNumber digits)).toList, dropBlank (rest.drop digits.length))

theorem length_unescape_le (rest : Text) :
    (unescape rest).2.length ≤ rest.length := by
  simp only [unescape]
  split
  · simp
  · exact Nat.le_trans (length_dropBlank_le _) (by simp)

/-- The identifier at the front of a text with its escapes resolved, and the
text after it. -/
def identifier : Text → Text × Text
  | [] => ([], [])
  | c :: rest =>
      if c = '\\' then
        let opened := unescape rest
        let others := identifier opened.2
        (opened.1 ++ others.1, others.2)
      else if isNameChar c then
        let others := identifier rest
        (c :: others.1, others.2)
      else
        ([], c :: rest)
  termination_by text => text.length
  decreasing_by
    · have := length_unescape_le rest
      simp only [List.length_cons]
      omega
    · simp

theorem length_identifier_le (text : Text) :
    (identifier text).2.length ≤ text.length := by
  fun_induction identifier text with
  | case1 => simp
  | case2 rest opened others inductionHypothesis =>
      have opening : opened.2.length ≤ rest.length := length_unescape_le rest
      change (identifier opened.2).2.length ≤ rest.length + 1
      omega
  | case3 c rest _ _ others inductionHypothesis =>
      change (identifier rest).2.length ≤ rest.length + 1
      omega
  | case4 => simp

/-- The text after a string whose opening quote has been passed. -/
def afterString (quote : Char) : Text → Text
  | [] => []
  | ['\\'] => []
  | '\\' :: _ :: rest => afterString quote rest
  | c :: rest => if c = quote then rest else afterString quote rest

theorem length_afterString_le (quote : Char) (text : Text) :
    (afterString quote text).length ≤ text.length := by
  fun_induction afterString quote text <;> simp_all <;> omega

/-- The text after an attribute test whose opening bracket has been passed. -/
def afterAttribute : Text → Text
  | [] => []
  | c :: rest =>
      if c = '"' ∨ c = '\'' then
        afterAttribute (afterString c rest)
      else if c = '\\' then
        afterAttribute (rest.drop 1)
      else if c = ']' then
        rest
      else
        afterAttribute rest
  termination_by text => text.length
  decreasing_by
    · have := length_afterString_le c rest
      simp only [List.length_cons]
      omega
    · simp only [List.length_cons, List.length_drop]
      omega
    · simp

theorem length_afterAttribute_le (text : Text) :
    (afterAttribute text).length ≤ text.length := by
  fun_induction afterAttribute text with
  | case1 => simp
  | case2 c rest _ inductionHypothesis =>
      have := length_afterString_le c rest
      simp only [List.length_cons]
      omega
  | case3 rest _ inductionHypothesis =>
      simp only [List.length_cons, List.length_drop] at *
      omega
  | case4 => simp
  | case5 c rest _ _ _ inductionHypothesis =>
      simp only [List.length_cons]
      omega

/-- The scopes in force, each global or not: outside parentheses, and inside
each open parenthesis, innermost first. -/
structure Scopes where
  bare : Bool
  inner : List Bool
  deriving DecidableEq, Repr

namespace Scopes

/-- The scopes at the start of a selector. -/
def start : Scopes :=
  ⟨false, []⟩

/-- Whether the innermost scope is global. -/
def isGlobal (scopes : Scopes) : Bool :=
  scopes.inner.headD scopes.bare

/-- Opens a parenthesis with a scope of its own. -/
def enter (scopes : Scopes) (isGlobal : Bool) : Scopes :=
  { scopes with inner := isGlobal :: scopes.inner }

/-- Closes a parenthesis. -/
def leave (scopes : Scopes) : Scopes :=
  { scopes with inner := scopes.inner.tail }

/-- Sets the innermost scope. -/
def set (scopes : Scopes) (isGlobal : Bool) : Scopes :=
  match scopes.inner with
  | [] => { scopes with bare := isGlobal }
  | _ :: outer => { scopes with inner := isGlobal :: outer }

/-- The scopes after a comma, which ends the bare scope outside parentheses. -/
def afterComma (scopes : Scopes) : Scopes :=
  if scopes.inner.isEmpty then { scopes with bare := false } else scopes

end Scopes

/-- The scope that the name of a pseudo-class sets: global or not. -/
def scopeOf? (name : Text) : Option Bool :=
  let lower := name.asciiLower
  if lower = "global".toList then
    some true
  else if lower = "local".toList then
    some false
  else
    none

/-- Drops the second colon of a pseudo-element. -/
def dropColon : Text → Text
  | ':' :: rest => rest
  | text => text

theorem length_dropColon_le (text : Text) :
    (dropColon text).length ≤ text.length := by
  unfold dropColon
  split <;> simp

/-- The scopes after a pseudo-class of a name, and the text after it, where a
parenthesis right after the name is opened too. -/
def afterPseudo
    (scopes : Scopes)
    (name rest : Text) : Scopes × Text :=
  match rest with
  | '(' :: body =>
      (scopes.enter ((scopeOf? name).getD scopes.isGlobal), body)
  | _ =>
      match scopeOf? name with
      | some isGlobal => (scopes.set isGlobal, rest)
      | none => (scopes, rest)

theorem length_afterPseudo_le (scopes : Scopes) (name rest : Text) :
    (afterPseudo scopes name rest).2.length ≤ rest.length := by
  unfold afterPseudo
  split
  · simp
  · split <;> simp

/-- Whether a text after a dot begins a class rather than a number. -/
def beginsClass (text : Text) : Bool :=
  !(identifier text).1.isEmpty && !text.head?.any Char.isDigit

/-- The classes of the selector text left, in order, given the scopes. -/
def classesFrom (scopes : Scopes) : Text → List Text
  | [] => []
  | c :: rest =>
      if c = '.' then
        let read := identifier rest
        let others := classesFrom scopes read.2
        if beginsClass rest ∧ ¬scopes.isGlobal then
          read.1 :: others
        else
          others
      else if c = '#' then
        classesFrom scopes (identifier rest).2
      else if c = '[' then
        classesFrom scopes (afterAttribute rest)
      else if c = '"' ∨ c = '\'' then
        classesFrom scopes (afterString c rest)
      else if c = ':' then
        let read := identifier (dropColon rest)
        let after := afterPseudo scopes read.1 read.2
        classesFrom after.1 after.2
      else if c = '(' then
        classesFrom (scopes.enter scopes.isGlobal) rest
      else if c = ')' then
        classesFrom scopes.leave rest
      else if c = ',' then
        classesFrom scopes.afterComma rest
      else if c = '\\' then
        classesFrom scopes (identifier (c :: rest)).2
      else
        classesFrom scopes rest
  termination_by text => text.length
  decreasing_by
    · have := length_identifier_le rest
      simp only [List.length_cons]
      omega
    · have := length_identifier_le rest
      simp only [List.length_cons]
      omega
    · have := length_afterAttribute_le rest
      simp only [List.length_cons]
      omega
    · have := length_afterString_le c rest
      simp only [List.length_cons]
      omega
    · have dropped := length_dropColon_le rest
      have identified := length_identifier_le (dropColon rest)
      have passed :=
        length_afterPseudo_le scopes (identifier (dropColon rest)).1
          (identifier (dropColon rest)).2
      simp only [List.length_cons]
      omega
    · simp
    · simp
    · simp
    · rename_i isEscape
      subst isEscape
      rw [identifier]
      have unescaped := length_unescape_le rest
      have identified := length_identifier_le (unescape rest).2
      simp only [if_true, List.length_cons]
      omega
    · simp

/-- The local classes of a selector in order, with repetitions. -/
def classes (selector : Text) : List Text :=
  classesFrom Scopes.start selector

end Selector
end StyleTypings
