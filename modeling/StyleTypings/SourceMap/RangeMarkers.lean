import StyleTypings.SourceMap.Vlq
import StyleTypings.SourceMap.Basic

/-!
# Range markers

For each generated line a row of base 64 digits marks the mappings that are
ranges: six mappings to a digit, the first in the lowest bit.

A mapping is marked while its row is still open, and a row closes only after the
first mapping of a later line has been marked. So the first mapping of a line,
if it is a range, is marked in the row before, at its distance from the first
mapping of that row.
-/

namespace StyleTypings
namespace RangeMarkers

/-- The six marks of a base 64 digit. -/
def marksOf (value : Nat) : List Bool :=
  (List.range 6).map value.testBit

/-- The first byte of a character, as a character of its own. -/
def firstByte (c : Char) : Char :=
  Char.ofNat ((String.singleton c).toUTF8.data[0]?.getD 0).toNat

/-- The marks of a row. -/
def decodeRow : Text → Except SourceMapError (List Bool)
  | [] => .ok []
  | c :: rest =>
      match Vlq.base64Value? c with
      | none => .error (.invalidBase64 (firstByte c))
      | some value => do
          let others ← decodeRow rest
          .ok (marksOf value ++ others)

/-- The digit of the marks from `first` on, given the marked places. -/
def digitAt (marked : List Nat) (first : Nat) : Char :=
  Vlq.base64Char <|
    (List.range 6).foldr
      (fun bit higher =>
        2 * higher + if marked.contains (first + bit) then 1 else 0)
      0

/-- A row that marks some places, without digits past the last of them. -/
def encodeRow (marked : List Nat) : Text :=
  match marked.max? with
  | none => []
  | some last =>
      (List.range (last / 6 + 1)).map fun digit => digitAt marked (6 * digit)

/-- Rows for the mappings left, given the open row: its line, the place of its
first mapping, and what it marks. -/
def encodeFrom
    (line : Nat)
    (first place : Nat)
    (marked : List Nat) : List Mapping → Text
  | [] => encodeRow marked
  | mapping :: rest =>
      let marks := if mapping.isRange then (place - first) :: marked else marked
      if mapping.line.toNat = line then
        encodeFrom line first (place + 1) marks rest
      else
        encodeRow marks ++ List.replicate (mapping.line.toNat - line) ';' ++
          encodeFrom mapping.line.toNat place (place + 1) [] rest

/-- The rows of all mappings; none if no mapping is a range. -/
def encode? (mappings : List Mapping) : Option Text :=
  if mappings.any (·.isRange) then
    some (encodeFrom 0 0 0 [] mappings)
  else
    none

end RangeMarkers
end StyleTypings
