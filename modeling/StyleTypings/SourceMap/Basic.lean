import StyleTypings.SourceMap.Position

/-!
# Source maps

A source map is a list of mappings from places in a generated text to places in
original files, in the order of the generated places. Both lines and columns
are 32-bit words counted from zero.

`originalPosition?` answers with the nearest mapping at or before a place on the
same generated line. `build` makes a map from pairs of positions.
-/

namespace StyleTypings

/-- Where a mapping leads: a file by its place in the list of sources, a line
and a column, and a name by its place in the list of names. -/
structure Origin where
  source : UInt32
  line : UInt32
  column : UInt32
  name : Option UInt32
  deriving DecidableEq, Repr

/-- A generated place and, unless it has none, its origin. A range mapping also
covers the places that follow it on the line. -/
structure Mapping where
  line : UInt32
  column : UInt32
  origin : Option Origin
  isRange : Bool
  deriving DecidableEq, Repr

namespace Mapping

/-- Whether a mapping lies before a generated place. -/
def isBefore (mapping : Mapping) (line column : UInt32) : Bool :=
  mapping.line < line || (mapping.line == line && mapping.column < column)

/-- Whether a mapping lies exactly at a generated place. -/
def isAt (mapping : Mapping) (line column : UInt32) : Bool :=
  mapping.line == line && mapping.column == column

/-- Order by generated place. -/
def precedes (left right : Mapping) : Bool :=
  !right.isBefore left.line left.column

end Mapping

/-- A source map. -/
structure SourceMap where
  /-- The generated file. -/
  file : Option Text
  /-- The original files. -/
  sources : List Text
  /-- A directory put in front of relative sources. -/
  sourceRoot : Option Text
  /-- Texts of the original files, by their place in the list of sources. -/
  contents : List (Option Text)
  names : List Text
  /-- The mappings in the order of their generated places. -/
  mappings : List Mapping
  /-- Places of sources to be ignored by tools, ascending. -/
  ignored : List UInt32
  /-- An identifier that ties the map to its generated file. -/
  debugId : Option Text
  deriving DecidableEq, Repr

namespace SourceMap

/-- The largest word, which stands for a missing line or column. -/
def absent : UInt32 :=
  0xFFFFFFFF

/-- A source with the source root in front, unless it is absolute or a web
address. -/
def resolveSource (sourceRoot : Option Text) (source : Text) : Text :=
  match sourceRoot with
  | none => source
  | some root =>
      let isAbsolute :=
        "/".toList.isPrefixOf source || "http:".toList.isPrefixOf source ||
          "https:".toList.isPrefixOf source
      if root.isEmpty || isAbsolute then
        source
      else if root.getLast? = some '/' then
        root ++ source
      else
        root ++ '/' :: source

/-- The mapping that governs a generated place: the first of those exactly
there, otherwise the last one before it. -/
def governing? (map : SourceMap) (line column : UInt32) : Option Mapping :=
  match map.mappings.find? (·.isAt line column) with
  | some mapping => some mapping
  | none => (map.mappings.takeWhile (·.isBefore line column)).getLast?

/-- Sum of two words, at most the largest word. -/
def saturatingSum (left right : UInt32) : UInt32 :=
  if left.toNat + right.toNat < UInt32.size then left + right else absent

/-- Where a mapping leads for a place on its line, unless that is absent. -/
def leadsTo?
    (map : SourceMap)
    (mapping : Mapping)
    (column : UInt32) : Option OriginalPosition := do
  let origin ← mapping.origin
  let reached :=
    if mapping.isRange then
      saturatingSum origin.column (column - mapping.column)
    else
      origin.column
  if origin.line = absent ∨ reached = absent then
    none
  else
    some
      { source :=
          map.sources[origin.source.toNat]?.map (resolveSource map.sourceRoot)
        line := origin.line + 1
        column := reached }

/-- The original position for a generated one, by the governing mapping if that
lies on the same line. -/
def originalPosition?
    (map : SourceMap)
    (generated : GeneratedPosition) : Option OriginalPosition :=
  if generated.line = 0 then
    none
  else do
    let line := generated.line - 1
    let mapping ← map.governing? line generated.column
    if mapping.line = line then
      map.leadsTo? mapping generated.column
    else
      none

/-- Number of mappings. -/
def size (map : SourceMap) : Nat :=
  map.mappings.length

/-- A generated position and the original one it comes from. -/
structure Entry where
  generated : GeneratedPosition
  original : OriginalPosition
  deriving DecidableEq, Repr

/-- Whether an entry can be mapped: its source is known and both lines count
from one. -/
def Entry.isMappable (entry : Entry) : Bool :=
  entry.original.source.isSome && entry.generated.line != 0 &&
    entry.original.line != 0

/-- The mapping of an entry whose source is the given place in the list. -/
def Entry.toMapping (entry : Entry) (source : UInt32) : Mapping :=
  { line := entry.generated.line - 1
    column := entry.generated.column
    origin := some
      { source
        line := entry.original.line - 1
        column := entry.original.column
        name := none }
    isRange := false }

/-- The mapping of an entry, given all sources. -/
def Entry.mapping? (sources : List Text) (entry : Entry) : Option Mapping :=
  if entry.isMappable then
    entry.original.source.map fun source =>
      entry.toMapping (sources.idxOf source).toUInt32
  else
    none

/-- The map of some entries, for a generated file. Entries that cannot be mapped
are left out; sources are listed in the order of their first use. -/
def build (file : Option Text) (entries : List Entry) : SourceMap :=
  let mappable := entries.filter Entry.isMappable
  let sources := (mappable.filterMap (·.original.source)).eraseDups
  { file
    sources
    sourceRoot := some []
    contents := []
    names := []
    mappings :=
      (mappable.filterMap (Entry.mapping? sources)).mergeSort Mapping.precedes
    ignored := []
    debugId := none }

end SourceMap
end StyleTypings
