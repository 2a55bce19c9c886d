import StyleTypings.Json.Basic

/-!
# Writing JSON

Compact JSON text. A quote, a backslash and the control characters below U+0020
are escaped, the usual ones by a letter and the others by four hexadecimal
digits in lower case; everything else stands for itself.
-/

namespace StyleTypings
namespace Json

/-- A hexadecimal digit in lower case. -/
def hexDigit (n : Nat) : Char :=
  if n < 10 then Char.ofNat (48 + n) else Char.ofNat (87 + n)

/-- How a character is written inside a string. -/
def escape (c : Char) : Text :=
  match c with
  | '"' => ['\\', '"']
  | '\\' => ['\\', '\\']
  | '\x08' => ['\\', 'b']
  | '\x0c' => ['\\', 'f']
  | '\n' => ['\\', 'n']
  | '\r' => ['\\', 'r']
  | '\t' => ['\\', 't']
  | _ =>
      if c.toNat < 0x20 then
        ['\\', 'u', '0', '0', hexDigit (c.toNat / 16), hexDigit (c.toNat % 16)]
      else
        [c]

/-- The string literal of a text. -/
def quote (text : Text) : Text :=
  '"' :: text.flatMap escape ++ ['"']

/-- An array of written values. -/
def writeArray (items : List Text) : Text :=
  '[' :: Text.join [','] items ++ [']']

/-- An object of written values. -/
def writeObject (members : List (Text × Text)) : Text :=
  '{' :: Text.join [','] (members.map fun member =>
    quote member.1 ++ ':' :: member.2) ++ ['}']

end Json
end StyleTypings
