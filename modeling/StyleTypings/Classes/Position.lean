import StyleTypings.SourceMap.Basic
import StyleTypings.Stylesheet.Walk
import StyleTypings.Text.Blank

/-!
# Where classes come from

A class comes from the last rule whose selector is the class by itself, with or
without the dot in front. A source map leads from the start of that rule in the
compiled text to the original file.
-/

namespace StyleTypings
namespace ClassPosition

/-- The name that a selector consists of: the selector without blanks around it
and without one dot in front. -/
def selectorName (selector : Text) : Text :=
  match selector.trim with
  | '.' :: name => name
  | name => name

/-- Where the last rule begins whose selector is a name by itself. -/
def lastRule? (rules : List (Text × Nat)) (name : Text) : Option Nat :=
  ((rules.filter fun rule => selectorName rule.1 == name).getLast?).map Prod.snd

/-- The original position of an offset into a compiled text. -/
def ofOffset?
    (css : Text)
    (map : SourceMap)
    (offset : Nat) : Option OriginalPosition := do
  let position ← (LineIndex.ofText css).lineColumnUtf16? css offset
  map.originalPosition? position.toGenerated

/-- The original positions of some classes of a compiled text. Without a map
there are none. -/
def ofClasses
    (sheet : Stylesheet)
    (css : Text)
    (map : Option SourceMap)
    (names : List Text) : List (Option OriginalPosition) :=
  match map with
  | none => names.map fun _ => none
  | some map =>
      names.map fun name =>
        (lastRule? sheet.rules name).bind (ofOffset? css map)

end ClassPosition
end StyleTypings
