import StyleTypings.Text.Basic

/-!
# Lines and columns

A line index holds the byte offset at which each line of a text starts. A line
ends with a line feed; a carriage return before it belongs to the line.

`lineColumn?` goes from an offset to a line and a byte column,
`lineColumnUtf16?` counts the column in UTF-16 units, and `offset?` goes back.
Lines and columns are 32-bit words counted from zero. Offsets are such words as well, so
texts from 2 ^ 32 bytes on are left out; a sum of two words that is no word stops the
computation.
-/

namespace StyleTypings

/-- A line and a column within it, both counted from zero. -/
structure LineColumn where
  line : UInt32
  column : UInt32
  deriving DecidableEq, Repr, Inhabited

/-- A sum of two numbers that no word of 32 bits holds. It has no value to go on with. -/
structure WordOverflow where
  left : Nat
  right : Nat
  deriving DecidableEq, Repr

/-- The sum of two numbers, if it is a word of 32 bits. -/
def wordSum (left right : Nat) : Except WordOverflow Nat :=
  if left + right < UInt32.size then .ok (left + right) else .error ⟨left, right⟩

/-- Where the lines of a text start, and where the text ends. -/
structure LineIndex where
  /-- Byte offsets of the line starts, ascending. -/
  starts : List Nat
  /-- Byte size of the text. -/
  size : Nat
  deriving DecidableEq, Repr

namespace LineIndex

/-- Offsets just past each line feed of a text that begins at `offset`. -/
def startsAfter (offset : Nat) : Text → List Nat
  | [] => []
  | c :: rest =>
      let next := offset + c.utf8Size
      if c = '\n' then
        next :: startsAfter next rest
      else
        startsAfter next rest

/-- The line index of a text. -/
def ofText (text : Text) : LineIndex :=
  { starts := 0 :: startsAfter 0 text, size := text.byteSize }

/-- Number of lines. -/
def lineCount (index : LineIndex) : Nat :=
  index.starts.length

/-- Starts of the lines that begin at or before an offset. -/
def startsUpTo (index : LineIndex) (offset : Nat) : List Nat :=
  index.starts.takeWhile (· ≤ offset)

/-- Where the line of an offset starts. -/
def lineStart (index : LineIndex) (offset : Nat) : Nat :=
  (index.startsUpTo offset).getLastD 0

/-- The line and byte column of an offset, unless it is past the end. -/
def lineColumn? (index : LineIndex) (offset : Nat) : Option LineColumn :=
  if offset ≤ index.size then
    some
      { line := ((index.startsUpTo offset).length - 1).toUInt32
        column := (offset - index.lineStart offset).toUInt32 }
  else
    none

/-- The line and UTF-16 column of an offset into the indexed text, unless it is
past the end or inside a character. -/
def lineColumnUtf16?
    (index : LineIndex)
    (text : Text)
    (offset : Nat) : Option LineColumn := do
  let position ← index.lineColumn? offset
  let before ← text.slice? (index.lineStart offset) offset
  some { position with column := (Text.utf16Size before).toUInt32 }

/-- The offset of a line and byte column: the line's start plus the column, unless there
is no such line or the sum is past the end. The words are added before the end is looked
at. -/
def offset? (index : LineIndex) (position : LineColumn) : Except WordOverflow (Option Nat) :=
  match index.starts[position.line.toNat]? with
  | none => .ok none
  | some start => do
      let offset ← wordSum start position.column.toNat
      return if offset ≤ index.size then some offset else none

end LineIndex
end StyleTypings
