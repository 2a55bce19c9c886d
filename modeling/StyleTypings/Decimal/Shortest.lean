import StyleTypings.Text.Basic

/-!
# Shortest decimals

A finite double is `m * 2 ^ q`. Among the decimals that round to it, `shortest`
takes one with the fewest digits and, of those, the nearest. For each number of
digits it looks at the two neighbours of the value on that decimal grid; if any
grid point rounds to the value, one of the two does.

All comparisons are exact, on natural numbers over a common denominator.
-/

namespace StyleTypings

/-- The number `digits * 10 ^ exponent`. -/
structure Decimal where
  digits : Nat
  exponent : Int
  deriving DecidableEq, Repr

/-- A positive binary number `significand * 2 ^ exponent`. -/
structure Binary where
  significand : Nat
  exponent : Int
  deriving DecidableEq, Repr

namespace Binary

/-- Whether the next double below is only half as far as the next above. -/
def isPowerBoundary (value : Binary) : Bool :=
  value.significand == Nat.pow 2 52 && value.exponent != -1074

/-- Denominator of the value, of the ends of its rounding interval and of every
grid point `10 ^ p` with `p` at least `place`. -/
def denominator (value : Binary) (place : Int) : Nat :=
  Nat.pow 2 (2 - value.exponent).toNat * Nat.pow 10 (-place).toNat

/-- Numerator of `quarters / 4 * 2 ^ exponent` over the common denominator. -/
def numerator (value : Binary) (place : Int) (quarters : Nat) : Nat :=
  quarters * Nat.pow 2 (value.exponent - 2).toNat * Nat.pow 10 (-place).toNat

/-- Numerator of `digits * 10 ^ place` over the common denominator. -/
def gridNumerator (value : Binary) (place : Int) (digits : Nat) : Nat :=
  digits * Nat.pow 10 place.toNat * Nat.pow 2 (2 - value.exponent).toNat

/-- Whether a grid point rounds to the value; the ends of the interval do when
the significand is even. -/
def roundsFrom (value : Binary) (place : Int) (digits : Nat) : Bool :=
  let point := value.gridNumerator place digits
  let below := if value.isPowerBoundary then 1 else 2
  let low := value.numerator place (4 * value.significand - below)
  let high := value.numerator place (4 * value.significand + 2)
  if value.significand % 2 == 0 then
    low ≤ point && point ≤ high
  else
    low < point && point < high

/-- The largest grid point not above the value. -/
def floorAt (value : Binary) (place : Int) : Nat :=
  value.numerator place (4 * value.significand) / value.gridNumerator place 1

/-- The decimal exponent of the leading digit; every positive double is at
least `10 ^ -400`. -/
def leadingPlace (value : Binary) : Int :=
  ((Nat.toDigits 10 (value.floorAt (-400))).length : Int) - 401

/-- The nearer of the two neighbours on a grid that rounds to the value. -/
def neighbour? (value : Binary) (place : Int) : Option Decimal :=
  let below := value.floorAt place
  let target := value.numerator place (4 * value.significand)
  let beneath := target - value.gridNumerator place below
  let above := value.gridNumerator place (below + 1) - target
  let ordered :=
    if beneath < above || (beneath == above && below % 2 == 0) then
      [below, below + 1]
    else
      [below + 1, below]
  (ordered.find? (value.roundsFrom place)).map fun digits => ⟨digits, place⟩

/-- A shortest decimal that rounds to the value. -/
def shortest (value : Binary) : Decimal :=
  let lead := value.leadingPlace
  let found := (List.range 17).findSome? fun count : Nat =>
    value.neighbour? (lead - (count : Int))
  found.getD ⟨value.floorAt (lead - 16), lead - 16⟩

end Binary

namespace Decimal

/-- The decimal without trailing zeros, given a bound on their number. -/
def stripZeros : Nat → Decimal → Decimal
  | 0, value => value
  | bound + 1, value =>
      if value.digits != 0 && value.digits % 10 == 0 then
        stripZeros bound ⟨value.digits / 10, value.exponent + 1⟩
      else
        value

/-- Positional text with at least one digit on each side of the point while the
leading digit lies between `10 ^ -5` and `10 ^ 15`; otherwise one digit, the
others after a point, and an exponent with its sign. -/
def toText (value : Decimal) : Text :=
  let trimmed := value.stripZeros 20
  let digits := Text.ofNat trimmed.digits
  let lead : Int := (digits.length : Int) - 1 + trimmed.exponent
  if -5 ≤ lead && lead ≤ 15 then
    if 0 ≤ trimmed.exponent then
      digits ++ List.replicate trimmed.exponent.toNat '0' ++ ".0"
    else if 0 ≤ lead then
      digits.take (lead.toNat + 1) ++ "." ++ digits.drop (lead.toNat + 1)
    else
      "0." ++ List.replicate ((-lead).toNat - 1) '0' ++ digits
  else
    let fraction := digits.drop 1
    digits.take 1 ++ (if fraction.isEmpty then [] else '.' :: fraction) ++ "e" ++
      (if lead < 0 then "-" else "+") ++ Text.ofNat lead.natAbs

end Decimal

/-- The shortest text of a finite double that reads back as the same double. -/
def floatText (value : Float) : Text :=
  let bits : Nat := value.toBits.toNat
  let sign : Text := if bits / Nat.pow 2 63 == 1 then "-" else []
  let stored : Nat := bits / Nat.pow 2 52 % Nat.pow 2 11
  let fraction : Nat := bits % Nat.pow 2 52
  if stored == 0 && fraction == 0 then
    sign ++ "0.0"
  else
    let binary : Binary :=
      if stored == 0 then
        ⟨fraction, -1074⟩
      else
        ⟨Nat.pow 2 52 + fraction, (stored : Int) - 1075⟩
    sign ++ binary.shortest.toText

end StyleTypings
