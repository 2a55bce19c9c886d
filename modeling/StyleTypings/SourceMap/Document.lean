import StyleTypings.Json.Decode
import StyleTypings.Json.Reader
import StyleTypings.Json.Writer
import StyleTypings.SourceMap.Segments

/-!
# Source maps as JSON

`toJson` writes the compact form of a map; fields without content are left out,
except the source root and the list of names, which a map always carries when
they are set. `ofJson` reads a map back. A guard line in front of the JSON text
is skipped, maps made of sections are checked and refused, and so are maps that
carry function maps.
-/

namespace StyleTypings
namespace SourceMap

/-- A text or null. -/
def writeOptional (text : Option Text) : Text :=
  match text with
  | none => "null"
  | some text => Json.quote text

/-- The texts of the original files, one for each source, if there are any. -/
def contentsField? (map : SourceMap) : Option Text :=
  let contents := (List.range map.sources.length).map fun place =>
    (map.contents[place]?).join
  if contents.any (·.isSome) then
    some (Json.writeArray (contents.map writeOptional))
  else
    none

/-- The fields of a map in the order in which they are written. -/
def fields (map : SourceMap) : List (Text × Option Text) :=
  [ ("version", some "3"),
    ("file", map.file.map Json.quote),
    ("sources", some (Json.writeArray (map.sources.map Json.quote))),
    ("sourceRoot", map.sourceRoot.map Json.quote),
    ("sourcesContent", map.contentsField?),
    ("names", some (Json.writeArray (map.names.map Json.quote))),
    ("rangeMappings", (RangeMarkers.encode? map.mappings).map Json.quote),
    ("mappings", some (Json.quote (Segments.encode map.mappings))),
    ("ignoreList",
      if map.ignored.isEmpty then
        none
      else
        some (Json.writeArray
          (map.ignored.map fun place => Text.ofNat place.toNat))),
    ("debug_id", map.debugId.map Json.quote) ]

/-- The map as compact JSON. -/
def toJson (map : SourceMap) : Text :=
  Json.writeObject <|
    map.fields.filterMap fun field => field.2.map fun value => (field.1, value)

/-- The text after a guard line. The line starts with one of four characters
and ends with a line feed; a carriage return in it needs a line feed next. -/
def afterGuard : Text → Except SourceMapError Text
  | [] => .ok []
  | '\n' :: rest => .ok rest
  | '\r' :: '\n' :: rest => .ok rest
  | '\r' :: _ => .error .expectedNewline
  | _ :: rest => afterGuard rest

/-- The text without its guard line, if it has one. -/
def withoutGuard (text : Text) : Except SourceMapError Text :=
  match text with
  | [] => .ok []
  | c :: rest =>
      if c == ')' || c == ']' || c == '}' || c == '\'' then
        afterGuard rest
      else
        .ok (c :: rest)

/-- Whether a text is a universally unique identifier of the given form: a digit
where the form has a digit and a hyphen where it has a hyphen. -/
def hasForm : Text → Text → Bool
  | [], [] => true
  | c :: rest, mark :: form =>
      (if mark == '-' then c == '-' else (Json.hexDigit? c).isSome) &&
        hasForm rest form
  | _, _ => false

/-- A debug identifier in its usual spelling: a universally unique identifier
with or without hyphens, and perhaps a further number in hexadecimal. -/
def debugId? (text : Text) : Option Text :=
  let form : Text := "00000000-0000-0000-0000-000000000000"
  let lower := text.asciiLower
  let isHyphenated := text[8]? = some '-'
  let size := if isHyphenated then 36 else 32
  let digits := (lower.take size).filter (· != '-')
  let fits :=
    if isHyphenated then
      hasForm (lower.take size) form
    else
      hasForm (lower.take size) (List.replicate 32 '0')
  let spelled :=
    Text.join ['-']
      [digits.take 8, (digits.drop 8).take 4, (digits.drop 12).take 4,
        (digits.drop 16).take 4, digits.drop 20]
  let suffix :=
    if isHyphenated then Text.stripStart? ['-'] (lower.drop size)
    else some (lower.drop size)
  if !fits then
    none
  else if (lower.drop size).isEmpty then
    some spelled
  else do
    let appendix ← suffix
    let values ← appendix.mapM Json.hexDigit?
    let value := values.foldl (fun total digit => 16 * total + digit) 0
    if appendix.isEmpty || UInt32.size ≤ value then
      none
    else if value = 0 then
      some spelled
    else
      some (spelled ++ '-' :: Nat.toDigits 16 value)

/-- The fields of a map as read, before its mappings are decoded. -/
structure Document where
  file : Option Json
  sources : List (Option Text)
  sourceRoot : Option Text
  contents : List (Option Text)
  names : List Json
  rows : Text
  segments : Text
  ignored : List UInt32
  hasFunctionMaps : Bool
  debugId : Option Text

/-- A document, or the sections that it is made of. -/
inductive Layout
  | plain (document : Document)
  | sections (layouts : List Layout)

/-- Names of the fields of a map. -/
def fieldNames : List Text :=
  ["version", "file", "sources", "sourceRoot", "sourcesContent", "sections",
    "names", "rangeMappings", "mappings", "ignoreList", "x_facebook_offsets",
    "x_metro_module_paths", "x_facebook_sources", "debug_id", "debugId"].map
    String.toList

/-- The scopes of the functions of one source: names and mappings. -/
def functionScopes : Json.View Unit
  | room + 1, value => do
      match ← Json.record? ["names".toList, "mappings".toList] false false value with
      | [names, mappings] =>
          let _ ← Json.requiredField (Json.View.list Json.View.text) room names
          let _ ← Json.requiredField Json.View.text room mappings
          some ()
      | _ => none
  | 0, _ => none

/-- Where a section starts: a line and a column. -/
def sectionOffset : Json.View Unit
  | room + 1, value => do
      match ← Json.record? ["line".toList, "column".toList] false false value with
      | [line, column] =>
          let _ ← Json.requiredField Json.View.word room line
          let _ ← Json.requiredField Json.View.word room column
          some ()
      | _ => none
  | 0, _ => none

/-- A debug identifier. -/
def debugIdView : Json.View Text :=
  fun room value => (Json.View.text room value).bind debugId?

/-- The fields of a plain map. -/
def documentOf (room : Nat) (field : Text → Option Json) : Option Document := do
  let texts := Json.View.list (Json.View.optional Json.View.text)
  let _ ← Json.optionalField Json.View.word room (field "version")
  let file ← Json.optionalField Json.View.any room (field "file")
  let sources ← Json.optionalField texts room (field "sources")
  let sourceRoot ← Json.optionalField Json.View.text room (field "sourceRoot")
  let contents ← Json.optionalField texts room (field "sourcesContent")
  let names ←
    Json.optionalField (Json.View.list Json.View.any) room (field "names")
  let rows ← Json.optionalField Json.View.text room (field "rangeMappings")
  let segments ← Json.optionalField Json.View.text room (field "mappings")
  let ignored ←
    Json.optionalField (Json.View.list Json.View.word) room (field "ignoreList")
  let _ ←
    Json.optionalField
      (Json.View.list (Json.View.optional Json.View.word)) room
      (field "x_facebook_offsets")
  let _ ←
    Json.optionalField (Json.View.list Json.View.text) room
      (field "x_metro_module_paths")
  let functionMaps ←
    Json.optionalField
      (Json.View.list (Json.View.optional (Json.View.list functionScopes))) room
      (field "x_facebook_sources")
  let oldId ← Json.optionalField debugIdView room (field "debug_id")
  let newId ← Json.optionalField debugIdView room (field "debugId")
  some
    { file
      sources := sources.getD []
      sourceRoot
      contents := contents.getD []
      names := names.getD []
      rows := rows.getD []
      segments := segments.getD []
      ignored := ignored.getD []
      hasFunctionMaps := functionMaps.isSome
      debugId := oldId <|> newId }

/-- The field of a name in a record read by `fieldNames`. -/
def fieldAmong (fields : List (Option Json)) (name : Text) : Option Json :=
  ((fieldNames.zip fields).find? fun entry => entry.1 == name).bind Prod.snd

/-- A map as laid out in JSON; each section may hold a map of its own. -/
def layout : Json.View Layout
  | room + 1, value => do
      let fields ← Json.record? fieldNames false false value
      let document ← documentOf room (fieldAmong fields)
      let part : Json.View (List Layout) := fun _ value => do
        let names := ["offset".toList, "url".toList, "map".toList]
        match ← Json.record? names false false value with
        | [offset, url, map] =>
            let _ ← Json.requiredField sectionOffset (room - 2) offset
            let _ ← Json.optionalField Json.View.text (room - 2) url
            let inner ←
              Json.optionalField (fun _ map => layout (room - 2) map) room map
            some inner.toList
        | _ => none
      let parts ←
        Json.optionalField (Json.View.list part) room
          (fieldAmong fields "sections")
      match parts with
      | none => some (.plain document)
      | some layouts => some (.sections layouts.flatten)
  | 0, _ => none
  termination_by room => room

/-- The name that a value gives. -/
def nameOf : Json → Text
  | .string text => text.getD []
  | .number literal => literal.toText?.getD []
  | _ => []

/-- The map of a plain document. -/
def ofDocument (document : Document) : Except SourceMapError SourceMap := do
  let limits := ⟨document.sources.length, document.names.length⟩
  let mappings ← Segments.decode limits document.rows document.segments
  .ok
    { file := document.file.map fun value =>
        match value with
        | .string text => text.getD []
        | _ => "<invalid>"
      sources := document.sources.map (·.getD [])
      sourceRoot := document.sourceRoot
      contents := document.contents
      names := document.names.map nameOf
      mappings := mappings.mergeSort Mapping.precedes
      ignored := (document.ignored.mergeSort (· ≤ ·)).eraseDups
      debugId := document.debugId }

mutual

/-- Decodes every map of a layout. -/
def checkLayout : Layout → Except SourceMapError Unit
  | .plain document => do
      let _ ← ofDocument document
      .ok ()
  | .sections layouts => checkLayouts layouts

/-- Decodes every map of some layouts in turn. -/
def checkLayouts : List Layout → Except SourceMapError Unit
  | [] => .ok ()
  | layout :: rest => do
      checkLayout layout
      checkLayouts rest

end

/-- Nesting limit of the containers of a document. -/
def maxDepth : Nat :=
  127

/-- The map that a JSON text holds. -/
def ofJson (text : Text) : Except SourceMapError SourceMap := do
  let body ← withoutGuard text
  match (Json.read? body).bind (layout maxDepth) with
  | none => .error (.badJson (Json.SyntaxError.ofText? body))
  | some (.plain document) => do
      let map ← ofDocument document
      if document.hasFunctionMaps then .error .incompatible else .ok map
  | some (.sections layouts) => do
      checkLayouts layouts
      .error .incompatible

end SourceMap
end StyleTypings
