import StyleTypings.Json.Reader
import StyleTypings.Text.LineIndex

/-!
# Where a text stops being JSON

A fault is the first place at which a text departs from the grammar of JSON. It
lies just past the character that does not fit, or at the end of a text that
stops too early; its line and column count bytes.
-/

namespace StyleTypings
namespace Json

/-- How a text departs from the grammar. -/
inductive Problem
  | endInValue
  | endInList
  | endInObject
  | endInString
  | expectedValue
  | expectedWord
  | expectedKey
  | expectedColon
  | expectedItemEnd
  | expectedMemberEnd
  | trailingComma
  | trailingText
  | invalidNumber
  | invalidEscape
  | controlCharacter
  deriving DecidableEq, Repr

/-- The problem in words. -/
def Problem.message : Problem → Text
  | .endInValue => "EOF while parsing a value"
  | .endInList => "EOF while parsing a list"
  | .endInObject => "EOF while parsing an object"
  | .endInString => "EOF while parsing a string"
  | .expectedValue => "expected value"
  | .expectedWord => "expected ident"
  | .expectedKey => "key must be a string"
  | .expectedColon => "expected `:`"
  | .expectedItemEnd => "expected `,` or `]`"
  | .expectedMemberEnd => "expected `,` or `\x7d`"
  | .trailingComma => "trailing comma"
  | .trailingText => "trailing characters"
  | .invalidNumber => "invalid number"
  | .invalidEscape => "invalid escape"
  | .controlCharacter =>
      "control character (\\u0000-\\u001F) found while parsing a string"

/-- A problem at a byte offset. -/
structure Fault where
  problem : Problem
  offset : Nat
  deriving DecidableEq, Repr

namespace Fault

/-- The fault in the string whose characters follow at an offset, if its closing
quote is not reached. -/
def inString? (offset : Nat) : Text → Option Fault
  | [] => some ⟨.endInString, offset⟩
  | '"' :: _ => none
  | '\\' :: 'u' :: a :: b :: c :: d :: rest =>
      if (hexUnit? a b c d).isSome then
        inString? (offset + 6) rest
      else
        some ⟨.invalidEscape, offset + 6⟩
  | '\\' :: 'u' :: rest =>
      if Text.byteSize rest < 4 then
        some ⟨.endInString, offset + 2 + Text.byteSize rest⟩
      else
        some ⟨.invalidEscape, offset + 6⟩
  | ['\\'] => some ⟨.endInString, offset + 1⟩
  | '\\' :: c :: rest =>
      if (escaped? c).isSome then
        inString? (offset + 2) rest
      else
        some ⟨.invalidEscape, offset + 2⟩
  | c :: rest =>
      if c.toNat < 0x20 then
        some ⟨.controlCharacter, offset + 1⟩
      else
        inString? (offset + c.utf8Size) rest

/-- The fault where a digit is needed, or what follows the digits there. -/
def afterDigits?
    (offset : Nat)
    (next : Nat → Text → Option Fault)
    (text : Text) : Option Fault :=
  match text with
  | [] => some ⟨.endInValue, offset⟩
  | c :: _ =>
      if c.isDigit then
        next (offset + (text.takeWhile Char.isDigit).length)
          (text.dropWhile Char.isDigit)
      else
        some ⟨.invalidNumber, offset + 1⟩

/-- The fault in the exponent of a number. -/
def inExponent? (offset : Nat) : Text → Option Fault
  | [] => none
  | mark :: rest =>
      if mark = 'e' ∨ mark = 'E' then
        match rest with
        | '+' :: digits | '-' :: digits =>
            afterDigits? (offset + 2) (fun _ _ => none) digits
        | digits => afterDigits? (offset + 1) (fun _ _ => none) digits
      else
        none

/-- The fault in the fraction of a number and what follows it. -/
def inFraction? (offset : Nat) : Text → Option Fault
  | '.' :: digits => afterDigits? (offset + 1) inExponent? digits
  | text => inExponent? offset text

/-- The fault in an unsigned number. -/
def inUnsigned? (offset : Nat) : Text → Option Fault
  | '0' :: c :: rest =>
      if c.isDigit then
        some ⟨.invalidNumber, offset + 2⟩
      else
        inFraction? (offset + 1) (c :: rest)
  | text => afterDigits? offset inFraction? text

/-- The fault in a word of which a part is still expected. -/
def inWord? (offset : Nat) : Text → Text → Option Fault
  | [], _ => none
  | _ :: _, [] => some ⟨.endInValue, offset⟩
  | expected :: more, c :: rest =>
      if c = expected then
        inWord? (offset + 1) more rest
      else
        some ⟨.expectedWord, offset + 1⟩

/-- The fault in a scalar at an offset. -/
def inScalar? (offset : Nat) : Text → Option Fault
  | '"' :: rest => inString? (offset + 1) rest
  | 'n' :: rest => inWord? (offset + 1) "ull" rest
  | 't' :: rest => inWord? (offset + 1) "rue" rest
  | 'f' :: rest => inWord? (offset + 1) "alse" rest
  | '-' :: rest => inUnsigned? (offset + 1) rest
  | text => inUnsigned? offset text

/-- Whether a value that is no container may begin with a character. -/
def beginsScalar (c : Char) : Bool :=
  c == '"' || c == '-' || c.isDigit || c == 'n' || c == 't' || c == 'f'

/-- The problem with a character where a value is awaited. -/
def valueProblem? (justOpen : Bool) (frames : List Frame) (c : Char) : Option Problem :=
  match frames with
  | .items _ :: _ =>
      if c = ']' then
        if justOpen then none else some .trailingComma
      else if beginsScalar c || c == '[' || c == '{' then
        none
      else
        some .expectedValue
  | _ =>
      if beginsScalar c || c == '[' || c == '{' then none else some .expectedValue

/-- The problem with the character that comes next. -/
def problem? (reader : Reader) (c : Char) : Option Problem :=
  match reader with
  | .value justOpen frames => valueProblem? justOpen frames c
  | .key justOpen _ _ =>
      if c = '"' then
        none
      else if c = '}' then
        if justOpen then none else some .trailingComma
      else
        some .expectedKey
  | .colon _ _ _ => if c = ':' then none else some .expectedColon
  | .afterItem _ _ =>
      if c = ',' ∨ c = ']' then none else some .expectedItemEnd
  | .afterMember _ _ =>
      if c = ',' ∨ c = '}' then none else some .expectedMemberEnd
  | .finished _ => some .trailingText
  | .failed => some .expectedValue

/-- The problem with the end of the text. -/
def endProblem? (reader : Reader) : Option Problem :=
  match reader with
  | .value true (.items _ :: _) => some .endInList
  | .value _ _ => some .endInValue
  | .key true _ _ => some .endInObject
  | .key false _ _ => some .endInValue
  | .colon _ _ _ => some .endInObject
  | .afterItem _ _ => some .endInList
  | .afterMember _ _ => some .endInObject
  | .finished _ => none
  | .failed => none

/-- The first fault of the text left at an offset. -/
def from? (reader : Reader) (offset : Nat) (text : Text) : Option Fault :=
  match text with
  | [] => (endProblem? reader).map (⟨·, offset⟩)
  | c :: rest =>
      if isJsonBlank c then
        from? reader (offset + 1) rest
      else
        match problem? reader c with
        | some problem => some ⟨problem, offset + 1⟩
        | none =>
            match if beginsScalar c then inScalar? offset (c :: rest) else none with
            | some fault => some fault
            | none =>
                match Token.next? (c :: rest) with
                | none => none
                | some (token, after) =>
                    if after.length ≤ rest.length then
                      from? (reader.step token)
                        (offset + (Text.byteSize (c :: rest) - Text.byteSize after)) after
                    else
                      none
  termination_by text.length

/-- The first fault of a text; none if the text is JSON. -/
def ofText? (text : Text) : Option Fault :=
  from? (.value false []) 0 text

end Fault

/-- A problem with the line and byte column at which it was found. -/
structure SyntaxError where
  problem : Problem
  place : LineColumn
  deriving DecidableEq, Repr

namespace SyntaxError

/-- The first departure of a text from the grammar; none if the text is JSON. -/
def ofText? (text : Text) : Option SyntaxError := do
  let fault ← Fault.ofText? text
  let place ← (LineIndex.ofText text).lineColumn? fault.offset
  some ⟨fault.problem, place⟩

/-- The error in words; lines count from one. -/
def message (error : SyntaxError) : Text :=
  error.problem.message ++ " at line " ++ Text.ofNat (error.place.line.toNat + 1) ++
    " column " ++ Text.ofNat error.place.column.toNat

/-- What is added to a message for the sake of an error. -/
def addendum (error : Option SyntaxError) : Text :=
  match error with
  | some error => ": " ++ error.message
  | none => []

end SyntaxError
end Json
end StyleTypings
