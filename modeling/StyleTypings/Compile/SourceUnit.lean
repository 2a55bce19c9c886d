import StyleTypings.Compile.Error
import StyleTypings.Compile.ImportSpecifier
import StyleTypings.Stylesheet.Parser
import StyleTypings.Stylesheet.Walk

/-!
# Source units

A source unit is one file on its way into a bundle: its text with the LESS line
comments blanked out, where its nodes begin, and its local imports. Only imports
outside every block count, and imports of web addresses stay in the text.
-/

namespace StyleTypings

/-- An import outside every block. -/
structure ImportRule where
  specifier : Text
  span : Span
  deriving DecidableEq, Repr

namespace ImportRule

/-- The name, params and bytes of an at-rule. -/
def atRule? : Node → Option (Text × Text × Span)
  | .atBlock name params _ span _ => some (name, params, span)
  | .atStatement name params _ span => some (name, params, span)
  | _ => none

/-- The local import that a node is, if it is one. -/
def ofNode? (node : Node) : Option ImportRule := do
  let (name, params, span) ← atRule? node
  if Text.equalsIgnoringCase name "import" then
    let specifier ← ImportSpecifier.ofParams? params
    if ImportSpecifier.isRemote specifier then
      none
    else
      some ⟨specifier, span⟩
  else
    none

end ImportRule

/-- A file on its way into a bundle. -/
structure SourceUnit where
  path : Path
  /-- The text without LESS line comments. -/
  text : Text
  /-- Offsets at which the nodes begin, in document order. -/
  starts : List Nat
  /-- The local imports in the order of the text. -/
  imports : List ImportRule
  deriving DecidableEq, Repr

namespace SourceUnit

/-- The text of a lexeme, with one space for each byte of a line comment. -/
def blankLexeme (lexeme : Lexeme) : Text :=
  if lexeme.kind = .lineComment then
    List.replicate lexeme.text.byteSize ' '
  else
    lexeme.text

/-- A text with its LESS line comments blanked out. -/
def blankLineComments (text : Text) : Text :=
  (Lexer.lexemes .less 0 text).flatMap blankLexeme

/-- The text of a file as CSS: line comments are blanked out in LESS files. -/
def cleanText (path : Path) (text : Text) : Text :=
  match Dialect.ofExtension path.extension? with
  | .css => text
  | .less => blankLineComments text

/-- The place of an offset into a unit's text. -/
def place (text : Text) (offset : Nat) : LineColumn :=
  ((LineIndex.ofText text).lineColumnUtf16? text offset).getD ⟨0, 0⟩

/-- The unit of a file, unless its text has a fault. -/
def ofFile (path : Path) (source : Text) : Except CompileError SourceUnit :=
  let text := cleanText path source
  let parsed := Parser.parse text
  match parsed.faults with
  | fault :: _ =>
      .error (.atPlace (.fault fault.kind) path (place text fault.span.start))
  | [] =>
      .ok
        { path
          text
          starts := parsed.sheet.descendants.map fun node => node.span.start
          imports := parsed.sheet.nodes.filterMap ImportRule.ofNode? }

/-- A problem with one of a unit's imports. -/
def importError
    (unit : SourceUnit)
    (rule : ImportRule)
    (problem : CompileProblem) : CompileError :=
  .atPlace problem unit.path (place unit.text rule.span.start)

end SourceUnit
end StyleTypings
