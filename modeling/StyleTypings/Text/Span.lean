import StyleTypings.Text.Basic

/-!
# Spans

A span is a pair of byte offsets into a text. Spans read from the outside keep
the low 32 bits of their offsets.
-/

namespace StyleTypings

/-- A half-open range of byte offsets. -/
structure Span where
  /-- Offset of the first byte. -/
  start : Nat
  /-- Offset just past the last byte. -/
  stop : Nat
  deriving DecidableEq, Repr, Inhabited

namespace Span

/-- The span of two offsets, each reduced to 32 bits. -/
def ofRange (start stop : Nat) : Span :=
  ⟨start % UInt32.size, stop % UInt32.size⟩

/-- The span of no bytes at an offset. -/
def empty (offset : Nat) : Span :=
  ⟨offset, offset⟩

/-- Whether the two ends coincide. -/
def isEmpty (span : Span) : Bool :=
  span.start == span.stop

/-- The span from the start of one span to the end of another, never ending
before it starts. -/
def through (first last : Span) : Span :=
  ⟨first.start, max last.stop first.start⟩

@[simp] theorem start_through (first last : Span) :
    (first.through last).start = first.start := rfl

@[simp] theorem stop_through (first last : Span) :
    (first.through last).stop = max last.stop first.start := rfl

/-- The text that a span covers; empty when an end lies outside the text or
inside a character. -/
def slice (span : Span) (text : Text) : Text :=
  (text.slice? span.start span.stop).getD []

end Span
end StyleTypings
