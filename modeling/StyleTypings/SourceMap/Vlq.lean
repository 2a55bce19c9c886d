import StyleTypings.SourceMap.Error

/-!
# Variable-length quantities

An integer is doubled, its sign put in the lowest bit, and written in base 32
from the least significant digit on. Each digit but the last carries a mark that
more follow, and digit and mark together are one base 64 character.

A character outside the base 64 alphabet stands for a digit that never ends a
number, once for each of its bytes; so a segment that holds one is refused.
-/

namespace StyleTypings
namespace Vlq

/-- The base 64 alphabet. -/
def alphabet : Text :=
  "ABCDEFGHIJKLMNOPQRSTUVWXYZabcdefghijklmnopqrstuvwxyz0123456789+/".toList

/-- The base 64 character of a number below 64. -/
def base64Char (value : Nat) : Char :=
  alphabet.getD value 'A'

/-- The number of a base 64 character. -/
def base64Value? (c : Char) : Option Nat :=
  alphabet.idxOf? c

/-- A digit in base 32 and whether more digits follow. -/
structure Digit where
  bits : Nat
  continues : Bool
  deriving DecidableEq, Repr

/-- The digits that a character stands for. -/
def digitsOf (c : Char) : List Digit :=
  match base64Value? c with
  | some value => [⟨value % 32, 32 ≤ value⟩]
  | none =>
      if c = '{' then
        [⟨30, true⟩]
      else
        List.replicate c.utf8Size ⟨31, true⟩

/-- An integer with its sign moved to the lowest bit. -/
def fold (value : Int) : Nat :=
  if value < 0 then 2 * value.natAbs + 1 else 2 * value.natAbs

/-- The integer whose sign is the lowest bit. -/
def unfold (folded : Nat) : Int :=
  if folded % 2 = 1 then -((folded / 2 : Nat) : Int) else (folded / 2 : Nat)

/-- The characters of a number in base 32. -/
def encodeFolded (folded : Nat) : Text :=
  if folded < 32 then
    [base64Char folded]
  else
    base64Char (folded % 32 + 32) :: encodeFolded (folded / 32)
  termination_by folded

/-- The characters of an integer. -/
def encode (value : Int) : Text :=
  encodeFolded (fold value)

/-- Largest number of digits of one integer. -/
def maxDigits : Nat :=
  13

/-- The integers that digits stand for, where `count` digits of the first one
have been read and make up `value`. -/
def decodeFrom (count value : Nat) : List Digit → Except SourceMapError (List Int)
  | [] => if count = 0 then .ok [] else .error .vlqLeftover
  | digit :: rest =>
      if maxDigits ≤ count then
        .error .vlqOverflow
      else
        let total := value + digit.bits * Nat.pow 32 count
        if digit.continues then
          decodeFrom (count + 1) total rest
        else do
          let others ← decodeFrom 0 0 rest
          .ok (unfold total :: others)

/-- The integers of a segment; there is at least one. -/
def decode (segment : Text) : Except SourceMapError (List Int) :=
  match decodeFrom 0 0 (segment.flatMap digitsOf) with
  | .ok [] => .error .vlqNoValues
  | result => result

end Vlq
end StyleTypings
