import StyleTypings.Decimal.Shortest
import StyleTypings.Text.Number

/-!
# JSON values

A value keeps the order of its members and every repeated key. A string whose
escapes name half of a surrogate pair has no text, but may stand where a value
is skipped. A number keeps its digits as written, so that each reader can go by
its own limits.
-/

namespace StyleTypings

/-- The digits of a number as written. -/
structure NumberLiteral where
  negative : Bool
  /-- Digits before the point. -/
  whole : Text
  /-- Digits after the point; empty without a point. -/
  fraction : Text
  /-- Whether the exponent is negative, and its digits. -/
  exponent : Option (Bool × Text)
  deriving DecidableEq, Repr

/-- A JSON value. A string or key without a text names half of a surrogate
pair. -/
inductive Json
  | null
  | bool (value : Bool)
  | number (literal : NumberLiteral)
  | string (text : Option Text)
  | array (items : List Json)
  | object (members : List (Option Text × Json))
  deriving Repr, Inhabited

namespace NumberLiteral

/-- Whether the number has neither a fraction nor an exponent. -/
def isIntegral (literal : NumberLiteral) : Bool :=
  literal.fraction.isEmpty && literal.exponent.isNone

/-- The number as a natural below `bound`. -/
def natBelow? (bound : Nat) (literal : NumberLiteral) : Option Nat :=
  if literal.isIntegral && !literal.negative then
    (some (Text.digitsValue literal.whole)).filter (· < bound)
  else
    none

/-- Appends digits to a significand while it stays below `2 ^ 64`, and returns
it with the digits that did not fit. -/
def fill : Nat → Text → Nat × Text
  | significand, [] => (significand, [])
  | significand, digit :: rest =>
      let next := 10 * significand + (digit.toNat - 48)
      if next < UInt64.size then fill next rest else (significand, digit :: rest)

/-- Scales by a power of ten in steps of at most 308 places, rounding at each
step; the bound limits the number of steps. -/
def scale : Nat → Float → Int → Option Float
  | 0, value, _ => some value
  | bound + 1, value, exponent =>
      if exponent.natAbs ≤ 308 then
        let power := Float.ofScientific 1 false exponent.natAbs
        if 0 ≤ exponent then
          let product := value * power
          if product.isInf then none else some product
        else
          some (value / power)
      else if value == 0.0 then
        some value
      else if 0 ≤ exponent then
        none
      else
        scale bound (value / Float.ofScientific 1 false 308) (exponent + 308)

/-- The double nearest to the leading digits, scaled by its power of ten; none
past the largest double. -/
def float? (literal : NumberLiteral) : Option Float := do
  let (whole, wholeRest) := fill 0 literal.whole
  let (significand, fractionRest) := fill whole literal.fraction
  let places : Int :=
    (wholeRest.length : Int) - (literal.fraction.length - fractionRest.length : Nat)
  let magnitude ←
    match literal.exponent with
    | none => scale 8 (Float.ofNat significand) places
    | some (isNegative, digits) =>
        let shift := Text.digitsValue digits
        if shift < Nat.pow 2 31 then
          scale 8 (Float.ofNat significand)
            (if isNegative then places - shift else places + shift)
        else if significand != 0 && !isNegative then
          none
        else
          some 0.0
  some (if literal.negative then -magnitude else magnitude)

/-- The number printed again: integers of 64 bits digit by digit, everything
else as the shortest text of its double; none past the largest double. -/
def toText? (literal : NumberLiteral) : Option Text :=
  let value := Text.digitsValue literal.whole
  if literal.isIntegral && !literal.negative && value < UInt64.size then
    some (Text.ofNat value)
  else if literal.isIntegral && literal.negative && 0 < value &&
      value ≤ Nat.pow 2 63 then
    some ('-' :: Text.ofNat value)
  else
    literal.float?.map floatText

end NumberLiteral

namespace Json

mutual

/-- Number of nested arrays and objects. -/
def depth : Json → Nat
  | .array items => depthOfItems items + 1
  | .object members => depthOfMembers members + 1
  | _ => 0

/-- Largest depth of some items. -/
def depthOfItems : List Json → Nat
  | [] => 0
  | item :: rest => max item.depth (depthOfItems rest)

/-- Largest depth of some members. -/
def depthOfMembers : List (Option Text × Json) → Nat
  | [] => 0
  | (_, value) :: rest => max value.depth (depthOfMembers rest)

end

mutual

/-- Whether every string has a text and every number is in the range of a
double. -/
def isProper : Json → Bool
  | .string text => text.isSome
  | .number literal => literal.toText?.isSome
  | .array items => areProper items
  | .object members => areProperMembers members
  | _ => true

/-- Whether all items are proper. -/
def areProper : List Json → Bool
  | [] => true
  | item :: rest => item.isProper && areProper rest

/-- Whether all keys and values are proper. -/
def areProperMembers : List (Option Text × Json) → Bool
  | [] => true
  | (key, value) :: rest =>
      key.isSome && value.isProper && areProperMembers rest

end

end Json
end StyleTypings
