import StyleTypings.Text.LineIndex

/-!
# Positions of a source map

A generated position counts lines from one and columns from zero. An original
position may also name the file it lies in.
-/

namespace StyleTypings

/-- A position in generated text: lines from one, columns from zero. -/
structure GeneratedPosition where
  line : UInt32
  column : UInt32
  deriving DecidableEq, Repr, Inhabited

/-- A position in an original file: lines from one, columns from zero. -/
structure OriginalPosition where
  /-- The file, if it is known. -/
  source : Option Text
  line : UInt32
  column : UInt32
  deriving DecidableEq, Repr, Inhabited

/-- The position with its line counted from one. -/
def LineColumn.toGenerated (position : LineColumn) : GeneratedPosition :=
  ⟨position.line + 1, position.column⟩

theorem LineColumn.toGenerated_inj
    {left right : LineColumn}
    (same : left.toGenerated = right.toGenerated) :
    left = right := by
  obtain ⟨line, column⟩ := left
  obtain ⟨line', column'⟩ := right
  simpa [LineColumn.toGenerated] using same

end StyleTypings
