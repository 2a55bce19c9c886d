import StyleTypings.Json.Basic

/-!
# JSON tokens

`Token.next?` reads one token from the front of a text and returns what is left
after it; `tokens?` reads a whole text, skipping the four JSON blanks between
tokens.
-/

namespace StyleTypings
namespace Json

/-- A JSON token; `scalar` is any value that is neither array nor object. -/
inductive Token
  | openArray
  | closeArray
  | openObject
  | closeObject
  | comma
  | colon
  | scalar (value : Json)
  deriving Repr

/-- The value of four hexadecimal digits. -/
def hexDigit? (c : Char) : Option Nat :=
  if c.isDigit then
    some (c.toNat - 48)
  else if 'a' ≤ c ∧ c ≤ 'f' then
    some (c.toNat - 87)
  else if 'A' ≤ c ∧ c ≤ 'F' then
    some (c.toNat - 55)
  else
    none

/-- The number written by four hexadecimal digits. -/
def hexUnit? (a b c d : Char) : Option Nat := do
  some (4096 * (← hexDigit? a) + 256 * (← hexDigit? b) + 16 * (← hexDigit? c) +
    (← hexDigit? d))

/-- The character of a simple escape. -/
def escaped? (c : Char) : Option Char :=
  match c with
  | '"' => some '"'
  | '\\' => some '\\'
  | '/' => some '/'
  | 'b' => some '\x08'
  | 'f' => some '\x0c'
  | 'n' => some '\n'
  | 'r' => some '\r'
  | 't' => some '\t'
  | _ => none

/-- One piece of a string: a character, or a UTF-16 unit from an escape. -/
inductive StringPiece
  | char (value : Char)
  | unit (value : Nat)
  deriving DecidableEq, Repr

/-- The pieces of a string up to its closing quote, and the text after it. A
control character or an unknown escape is refused. -/
def stringPieces? : Text → Option (List StringPiece × Text)
  | [] => none
  | '"' :: rest => some ([], rest)
  | '\\' :: 'u' :: a :: b :: c :: d :: rest => do
      let unit ← hexUnit? a b c d
      let (pieces, after) ← stringPieces? rest
      some (.unit unit :: pieces, after)
  | '\\' :: c :: rest => do
      let char ← escaped? c
      let (pieces, after) ← stringPieces? rest
      some (.char char :: pieces, after)
  | c :: rest =>
      if c.toNat < 0x20 || c == '\\' then
        none
      else do
        let (pieces, after) ← stringPieces? rest
        some (.char c :: pieces, after)

/-- The text of some pieces; none when a surrogate has no partner. -/
def piecesText? : List StringPiece → Option Text
  | [] => some []
  | .char c :: rest => (piecesText? rest).map (c :: ·)
  | .unit high :: .unit low :: rest =>
      if high < 0xD800 || 0xDFFF < high then
        (piecesText? (.unit low :: rest)).map (Char.ofNat high :: ·)
      else if high ≤ 0xDBFF && 0xDC00 ≤ low && low ≤ 0xDFFF then
        (piecesText? rest).map
          (Char.ofNat (0x10000 + 1024 * (high - 0xD800) + (low - 0xDC00)) :: ·)
      else
        none
  | .unit value :: rest =>
      if value < 0xD800 || 0xDFFF < value then
        (piecesText? rest).map (Char.ofNat value :: ·)
      else
        none

/-- The fraction digits of a number and the text after them; a point needs a
digit. -/
def fraction? : Text → Option (Text × Text)
  | '.' :: rest =>
      let digits := rest.takeWhile Char.isDigit
      if digits.isEmpty then none else some (digits, rest.dropWhile Char.isDigit)
  | text => some ([], text)

/-- The exponent of a number and the text after it; the mark needs a digit. -/
def exponent? (text : Text) : Option (Option (Bool × Text) × Text) :=
  match text with
  | [] => some (none, [])
  | mark :: rest =>
      if mark == 'e' || mark == 'E' then
        let (isNegative, unsigned) :=
          match rest with
          | '-' :: after => (true, after)
          | '+' :: after => (false, after)
          | after => (false, after)
        let digits := unsigned.takeWhile Char.isDigit
        if digits.isEmpty then
          none
        else
          some (some (isNegative, digits), unsigned.dropWhile Char.isDigit)
      else
        some (none, text)

/-- A number and the text after it; the whole part has no leading zero. -/
def number? (text : Text) : Option (NumberLiteral × Text) := do
  let (negative, unsigned) :=
    match text with
    | '-' :: after => (true, after)
    | after => (false, after)
  let (whole, afterWhole) ←
    match unsigned with
    | '0' :: rest => some (['0'], rest)
    | _ =>
        let digits := unsigned.takeWhile Char.isDigit
        if digits.isEmpty then
          none
        else
          some (digits, unsigned.dropWhile Char.isDigit)
  let (fraction, afterFraction) ← fraction? afterWhole
  let (exponent, rest) ← exponent? afterFraction
  some (⟨negative, whole, fraction, exponent⟩, rest)

/-- One token at the front of a text, and the text after it. -/
def Token.next? (text : Text) : Option (Token × Text) :=
  match text with
  | [] => none
  | '[' :: rest => some (.openArray, rest)
  | ']' :: rest => some (.closeArray, rest)
  | '{' :: rest => some (.openObject, rest)
  | '}' :: rest => some (.closeObject, rest)
  | ',' :: rest => some (.comma, rest)
  | ':' :: rest => some (.colon, rest)
  | '"' :: rest =>
      (stringPieces? rest).map fun read =>
        (.scalar (.string (piecesText? read.1)), read.2)
  | 'n' :: 'u' :: 'l' :: 'l' :: rest => some (.scalar .null, rest)
  | 't' :: 'r' :: 'u' :: 'e' :: rest => some (.scalar (.bool true), rest)
  | 'f' :: 'a' :: 'l' :: 's' :: 'e' :: rest => some (.scalar (.bool false), rest)
  | _ => (number? text).map fun read => (.scalar (.number read.1), read.2)

/-- A space, tab, line feed or carriage return. -/
def isJsonBlank (c : Char) : Bool :=
  c == ' ' || c == '\t' || c == '\n' || c == '\r'

/-- All tokens of a text. -/
def tokens? (text : Text) : Option (List Token) :=
  match text with
  | [] => some []
  | c :: rest =>
      if isJsonBlank c then
        tokens? rest
      else
        match Token.next? (c :: rest) with
        | none => none
        | some (token, after) =>
            if after.length ≤ rest.length then
              (tokens? after).map (token :: ·)
            else
              none
  termination_by text.length

end Json
end StyleTypings
