import StyleTypings.Classes.Exported
import StyleTypings.Classes.NameFormat
import StyleTypings.Classes.Position
import StyleTypings.SourceMap.Document
import StyleTypings.Stylesheet.Parser

/-!
# Named classes

The exported classes of a compiled text, each with the name under which it is
declared and the place it comes from.
-/

namespace StyleTypings

/-- An exported class after naming. -/
structure NamedClass where
  /-- The name as declared. -/
  name : Text
  /-- Where its rule begins in the original file, if that is known. -/
  position : Option OriginalPosition
  deriving DecidableEq, Repr

/-- Why a compiled text has no named classes. -/
inductive NamingError
  /-- The compiled text has a fault. -/
  | invalidCss (kind : FaultKind)
  /-- The compiler's source map cannot be read. -/
  | invalidMap (error : SourceMapError)
  deriving DecidableEq, Repr

/-- The message shown to the user. -/
def NamingError.message : NamingError → Text
  | .invalidCss kind => "compiled CSS is invalid: " ++ kind.message
  | .invalidMap error => error.message

namespace NamedClass

/-- The source map of a compiled text, if the compiler wrote one. -/
def readMap (map : Option Text) : Except NamingError (Option SourceMap) :=
  match map with
  | none => .ok none
  | some json =>
      match SourceMap.ofJson json with
      | .ok map => .ok (some map)
      | .error error => .error (.invalidMap error)

/-- The named classes of a compiled text with its source map, in the order of
their first occurrence. -/
def ofCompiled
    (css : Text)
    (map : Option Text)
    (format : NameFormat) : Except NamingError (List NamedClass) :=
  let parsed := Parser.parse css
  match parsed.faults with
  | fault :: _ => .error (.invalidCss fault.kind)
  | [] => do
      let names := parsed.sheet.exported
      let positions :=
        ClassPosition.ofClasses parsed.sheet css (← readMap map) names
      .ok <| (names.zip positions).map fun entry =>
        ⟨format.apply entry.1, entry.2⟩

end NamedClass
end StyleTypings
