import StyleTypings.Declaration.Render

/-!
# Declaration maps

The source map of a declaration leads from the name on each rendered line to the
place that its class comes from.
-/

namespace StyleTypings
namespace Declaration

/-- The entry of a rendered line, if its class has a known position. A position
without a file lies in the style sheet itself. -/
def entryOf?
    (classes : List NamedClass)
    (stylesheetFile : Text)
    (line : DeclarationLine) : Option SourceMap.Entry := do
  let item ← classes[line.index]?
  let position ← item.position
  some
    { generated := ⟨line.line.toUInt32, line.column.toUInt32⟩
      original :=
        { position with source := some (position.source.getD stylesheetFile) } }

/-- The source map of a declaration. -/
def toSourceMap
    (declaration : Declaration)
    (classes : List NamedClass)
    (declarationFile stylesheetFile : Text) : SourceMap :=
  SourceMap.build (some declarationFile)
    (declaration.lines.filterMap (entryOf? classes stylesheetFile))

/-- The comment that links a declaration to its map. -/
def mapFooter (mapFile : Text) : Text :=
  "//# sourceMappingURL=" ++ mapFile ++ ['\n']

end Declaration
end StyleTypings
