import StyleTypings.Classes.Named
import StyleTypings.Declaration.Rejection

/-!
# Rendering declarations

A declaration is the text of a TypeScript declaration file. Named exports have
one line for each class that can be exported; the default export is an interface
with one property for each class. Each rendered class is recorded with the line
and column of its name.

Lines and columns are counted without bound. They stand for words of 32 bits, so lists of
classes with more lines than such a word counts are left out.
-/

namespace StyleTypings

/-- The shape of a declaration. -/
inductive ExportType
  /-- One constant for each class. -/
  | named
  /-- An interface with a default export. -/
  | default
  deriving DecidableEq, Repr

namespace ExportType

/-- The word of a shape. -/
def word : ExportType → Text
  | .named => "named"
  | .default => "default"

/-- The shape of a word. -/
def ofText? (text : Text) : Option ExportType :=
  [named, .default].find? fun shape => shape.word == text

/-- The message about a word that is no shape. -/
def invalidMessage (word : Text) : Text :=
  "invalid export type '" ++ word ++ "' (expected 'named' or 'default')"

end ExportType

/-- Where a class is rendered. -/
structure DeclarationLine where
  /-- The place of the class in the list of classes. -/
  index : Nat
  /-- The line of the declaration, from one. -/
  line : Nat
  /-- The column where the name begins, from zero. -/
  column : Nat
  deriving DecidableEq, Repr

/-- A rendered declaration. -/
structure Declaration where
  text : Text
  exportType : ExportType
  /-- The rendered classes in order. -/
  lines : List DeclarationLine
  /-- The names left out, in order. -/
  rejections : List Rejection
  deriving DecidableEq, Repr

namespace Declaration

/-- What stands before the name of a named export. -/
def namedLead : Text :=
  "export const "

/-- What stands before the name of a property. -/
def propertyLead : Text :=
  "  '"

/-- The column of a name among the named exports. -/
def namedColumn : Nat :=
  13

/-- The column of a property, at its quote. -/
def propertyColumn : Nat :=
  2

/-- The line of a named export. -/
def namedLine (name : Text) : Text :=
  namedLead ++ name ++ ": string;"

/-- The line of a property with its line feed. -/
def propertyLine (name : Text) : Text :=
  propertyLead ++ name ++ "': string;\n"

/-- The classes that can be exported by name, with their places. -/
def kept (classes : List NamedClass) : List (NamedClass × Nat) :=
  classes.zipIdx.filter fun entry => (Rejection.ofName? entry.1.name).isNone

/-- Named exports. -/
def renderNamed (classes : List NamedClass) : Declaration :=
  let kept := kept classes
  { text :=
      Text.join ['\n'] (kept.map fun entry => namedLine entry.1.name) ++ ['\n']
    exportType := .named
    lines := kept.zipIdx.map fun entry =>
      ⟨entry.1.2, entry.2 + 1, namedColumn⟩
    rejections := classes.filterMap fun item => Rejection.ofName? item.name }

/-- The text after the properties. -/
def interfaceEnd : Text :=
  "\x7d\n\n" ++ "export type ClassNames = keyof Styles;\n\n" ++
    "declare const styles: Styles;\n\n" ++ "export default styles;\n"

/-- An interface with a default export. -/
def renderDefault (classes : List NamedClass) : Declaration :=
  { text :=
      "export interface Styles \x7b\n" ++
        classes.flatMap (fun item => propertyLine item.name) ++ interfaceEnd
    exportType := .default
    lines := classes.zipIdx.map fun entry =>
      ⟨entry.2, entry.2 + 2, propertyColumn⟩
    rejections := [] }

/-- The declaration of some classes; none if there is nothing to declare. -/
def render?
    (classes : List NamedClass)
    (exportType : ExportType) : Option Declaration :=
  if classes.isEmpty then
    none
  else
    match exportType with
    | .named => some (renderNamed classes)
    | .default => some (renderDefault classes)

end Declaration
end StyleTypings
