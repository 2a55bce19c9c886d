import StyleTypings.Compile.Linked
import StyleTypings.SourceMap.Document

/-!
# Bundles

A bundle is the text of a linked sheet put together: the pieces of each unit in
order, with every imported sheet at the place of its import. After an imported
sheet a line feed is added unless the bundle is empty or ends with one.

Along with the text the bundle lists where each node that was copied begins, in
the bundle and in its own file; its source map is made from that list.
-/

namespace StyleTypings

/-- Where the beginning of a node went. -/
structure CopiedStart where
  /-- Byte offset in the bundle. -/
  generated : Nat
  /-- The name of the file it was copied from. -/
  source : Text
  /-- Its place in that file. -/
  original : LineColumn
  deriving DecidableEq, Repr

/-- A text put together from pieces, with the beginnings of the nodes. -/
structure Bundle where
  css : Text
  copied : List CopiedStart
  deriving DecidableEq, Repr

/-- The outcome of a compilation. -/
structure CompileOutput where
  css : Text
  /-- The source map as JSON, if one was asked for. -/
  map : Option Text
  deriving DecidableEq, Repr

namespace Bundle

/-- The bundle without any piece. -/
def empty : Bundle :=
  ⟨[], []⟩

/-- The name of a source: its path from the directory of the entry, or the whole
path if it lies elsewhere. -/
def sourceName (root path : Path) : Text :=
  match path.stripBase? root with
  | some relative => relative.text
  | none => path.text

/-- Where a node's beginning goes when the bytes from `first` on are copied to
`base`. -/
def copyStart?
    (unit : SourceUnit)
    (source : Text)
    (base first start : Nat) : Option CopiedStart :=
  ((LineIndex.ofText unit.text).lineColumnUtf16? unit.text start).map
    fun original => ⟨base + start - first, source, original⟩

/-- Copies bytes of a unit to the end of a bundle. -/
def copy
    (bundle : Bundle)
    (root : Path)
    (unit : SourceUnit)
    (range : Span) : Bundle :=
  if range.stop ≤ range.start then
    bundle
  else
    let inside := unit.starts.filter fun start =>
      range.start ≤ start && start < range.stop
    { css := bundle.css ++ range.slice unit.text
      copied := bundle.copied ++
        inside.filterMap
          (copyStart? unit (sourceName root unit.path) bundle.css.byteSize
            range.start) }

/-- Ends the last line of a bundle that has one. -/
def endLine (bundle : Bundle) : Bundle :=
  if bundle.css.isEmpty ∨ bundle.css.getLast? = some '\n' then
    bundle
  else
    { bundle with css := bundle.css ++ ['\n'] }

mutual

/-- Adds a linked sheet to the end of a bundle. -/
def addSheet (root : Path) (bundle : Bundle) : LinkedSheet → Bundle
  | .sheet unit pieces tail =>
      (addPieces root unit bundle pieces).copy root unit tail

/-- Adds pieces of a unit, each with the sheet imported after it. -/
def addPieces
    (root : Path)
    (unit : SourceUnit)
    (bundle : Bundle) : List (Span × Option LinkedSheet) → Bundle
  | [] => bundle
  | (range, none) :: rest =>
      addPieces root unit (bundle.copy root unit range) rest
  | (range, some sheet) :: rest =>
      addPieces root unit
        (addSheet root (bundle.copy root unit range) sheet).endLine rest

end

/-- The bundle of a linked sheet. -/
def ofSheet (root : Path) (sheet : LinkedSheet) : Bundle :=
  addSheet root empty sheet

/-- The entry of a source map for the beginning of a node. -/
def mapEntryOf? (css : Text) (index : LineIndex) (start : CopiedStart) :
    Option SourceMap.Entry :=
  (index.lineColumnUtf16? css start.generated).map fun generated =>
    { generated := generated.toGenerated
      original :=
        { source := some start.source
          line := start.original.line + 1
          column := start.original.column } }

/-- The name of the compiled file of an entry. -/
def outputName (entry : Path) : Text :=
  entry.stem?.getD "out" ++ ".css"

/-- The source map of a bundle. -/
def toSourceMap (bundle : Bundle) (entry : Path) : SourceMap :=
  SourceMap.build (some (outputName entry))
    (bundle.copied.filterMap (mapEntryOf? bundle.css (LineIndex.ofText bundle.css)))

end Bundle

/-- What is to be compiled, besides the text. -/
structure CompileOptions where
  filename : Path
  imports : ImportOptions
  /-- Whether a source map is wanted. -/
  sourceMap : Bool
  deriving DecidableEq, Repr

namespace Native

/-- The directory of the entry, which names of sources start from. -/
def rootOf (filename : Path) : Path :=
  filename.parent?.getD ⟨[]⟩

/-- The output for a linked sheet. -/
def outputOf (options : CompileOptions) (sheet : LinkedSheet) : CompileOutput :=
  let bundle := Bundle.ofSheet (rootOf options.filename) sheet
  { css := bundle.css
    map :=
      if options.sourceMap then
        some (bundle.toSourceMap options.filename).toJson
      else
        none }

/-- Checks a style sheet and puts the files it imports in place of the imports. -/
def compile
    (options : CompileOptions)
    (source : Text) : Action (Except CompileError CompileOutput) :=
  (LinkedSheet.link options.imports options.filename source).bind fun linked =>
  match linked with
  | .error error => .done (.error error)
  | .ok sheet => .done (.ok (outputOf options sheet))

end Native
end StyleTypings
