import StyleTypings.Text.Basic

/-!
# Decimal numbers in texts

Reading a natural number below a bound: an optional plus sign and at least one
ASCII digit, nothing else.
-/

namespace StyleTypings
namespace Text

/-- The number that a list of ASCII digits denotes, most significant first. -/
def digitsValue (digits : Text) : Nat :=
  digits.foldl (fun value digit => 10 * value + (digit.toNat - 48)) 0

/-- Reads at least one ASCII digit and nothing else. -/
def digits? (text : Text) : Option Nat :=
  if !text.isEmpty && text.all Char.isDigit then
    some (digitsValue text)
  else
    none

/-- Reads a number below `bound`; one plus sign may come first. -/
def natBelow? (bound : Nat) (text : Text) : Option Nat :=
  let digits :=
    match text with
    | '+' :: rest => rest
    | other => other
  (digits? digits).filter (· < bound)

end Text
end StyleTypings
