import StyleTypings.SourceMap.RangeMarkers

/-!
# The text of the mappings

Lines are separated by semicolons and the segments of a line by commas. The
numbers of a segment are differences from the last such number: the generated
column starts again at zero on each line, the others run on over the whole map.
Differences are taken between words, and a sum keeps its low 32 bits.

A segment has one number, the generated column, or four, with a source, a line
and a column, or five, with a name. In writing, a mapping equal to the one
before it on the same line is left out.
-/

namespace StyleTypings

/-- The last numbers written or read. -/
structure Running where
  column : UInt32
  source : UInt32
  originalLine : UInt32
  originalColumn : UInt32
  name : UInt32
  deriving DecidableEq, Repr

namespace Running

/-- The numbers at the start of a map. -/
def start : Running :=
  ⟨0, 0, 0, 0, 0⟩

/-- The numbers at the start of a line. -/
def newLine (running : Running) : Running :=
  { running with column := 0 }

/-- The numbers after a mapping. -/
def after (running : Running) (mapping : Mapping) : Running :=
  match mapping.origin with
  | none => { running with column := mapping.column }
  | some origin =>
      { column := mapping.column
        source := origin.source
        originalLine := origin.line
        originalColumn := origin.column
        name := origin.name.getD running.name }

end Running

namespace Segments

/-- How far one word lies from another. -/
def difference (value previous : UInt32) : Int :=
  (value.toNat : Int) - (previous.toNat : Int)

/-- A word moved by a difference. -/
def moved (previous : UInt32) (difference : Int) : UInt32 :=
  UInt32.ofNat (((previous.toNat : Int) + difference) % UInt32.size).toNat

/-- The numbers of a mapping's segment. -/
def numbers (running : Running) (mapping : Mapping) : List Int :=
  difference mapping.column running.column ::
    match mapping.origin with
    | none => []
    | some origin =>
        difference origin.source running.source ::
          difference origin.line running.originalLine ::
          difference origin.column running.originalColumn ::
          match origin.name with
          | none => []
          | some name => [difference name running.name]

/-- The segment of a mapping. -/
def encodeSegment (running : Running) (mapping : Mapping) : Text :=
  (numbers running mapping).flatMap Vlq.encode

/-- The segments of the mappings on one line, given the mapping before them on
that line, and the numbers after them. -/
def encodeLine
    (running : Running)
    (previous : Option Mapping) : List Mapping → List Text × Running
  | [] => ([], running)
  | mapping :: rest =>
      if previous = some mapping then
        encodeLine running previous rest
      else
        let others := encodeLine (running.after mapping) (some mapping) rest
        (encodeSegment running mapping :: others.1, others.2)

/-- The texts of a number of lines from `line` on. -/
def encodeLines
    (running : Running)
    (mappings : List Mapping)
    (line : Nat) : Nat → List Text
  | 0 => []
  | count + 1 =>
      let isHere := fun mapping : Mapping => mapping.line.toNat == line
      let encoded := encodeLine running.newLine none (mappings.takeWhile isHere)
      Text.join [','] encoded.1 ::
        encodeLines encoded.2 (mappings.dropWhile isHere) (line + 1) count

/-- The text of some mappings in the order of their generated places. -/
def encode (mappings : List Mapping) : Text :=
  match mappings.getLast? with
  | none => []
  | some last =>
      Text.join [';'] (encodeLines Running.start mappings 0 (last.line.toNat + 1))

/-- What segments may refer to: the number of sources and of names. -/
structure Limits where
  sources : Nat
  names : Nat
  deriving DecidableEq, Repr

/-- The origin that the numbers after the first lead to. -/
def originOf
    (limits : Limits)
    (running : Running)
    (numbers : List Int) : Except SourceMapError (Option Origin) :=
  match numbers with
  | [] => .ok none
  | [source, line, column] =>
      let index := moved running.source source
      if limits.sources ≤ index.toNat then
        .error (.badSourceReference index)
      else
        .ok <| some
          { source := index
            line := moved running.originalLine line
            column := moved running.originalColumn column
            name := none }
  | [source, line, column, name] =>
      let index := moved running.source source
      let label := moved running.name name
      if limits.sources ≤ index.toNat then
        .error (.badSourceReference index)
      else if limits.names ≤ label.toNat then
        .error (.badNameReference label)
      else
        .ok <| some
          { source := index
            line := moved running.originalLine line
            column := moved running.originalColumn column
            name := some label }
  | other => .error (.badSegmentSize (other.length + 1))

/-- The mapping of a segment on a line. -/
def decodeSegment
    (limits : Limits)
    (running : Running)
    (line : UInt32)
    (isRange : Bool)
    (segment : Text) : Except SourceMapError Mapping := do
  match ← Vlq.decode segment with
  | [] => .error .vlqNoValues
  | column :: others =>
      let origin ← originOf limits running others
      .ok { line, column := moved running.column column, origin, isRange }

/-- The mappings of the segments left on a line, with the marks left, and the
numbers after them. -/
def decodeLine
    (limits : Limits)
    (line : UInt32) :
    Running → List Bool → List Text →
      Except SourceMapError (List Mapping × Running)
  | running, _, [] => .ok ([], running)
  | running, marks, segment :: rest =>
      if segment.isEmpty then
        decodeLine limits line running marks.tail rest
      else do
        let mapping ←
          decodeSegment limits running line (marks.headD false) segment
        let others ←
          decodeLine limits line (running.after mapping) marks.tail rest
        .ok (mapping :: others.1, others.2)

/-- The mappings of the lines left, with the rows of range markers left. -/
def decodeLines
    (limits : Limits) :
    Nat → Running → List Text → List Text → Except SourceMapError (List Mapping)
  | _, _, _, [] => .ok []
  | line, running, rows, text :: rest =>
      if text.isEmpty then
        decodeLines limits (line + 1) running rows.tail rest
      else do
        let marks ← RangeMarkers.decodeRow (rows.headD [])
        let decoded ←
          decodeLine limits line.toUInt32 running.newLine marks
            (Text.splitAt ',' text)
        let others ←
          decodeLines limits (line + 1) decoded.2 rows.tail rest
        .ok (decoded.1 ++ others)

/-- The mappings of a text with its rows of range markers. -/
def decode
    (limits : Limits)
    (rows text : Text) : Except SourceMapError (List Mapping) :=
  decodeLines limits 0 Running.start (Text.splitAt ';' rows)
    (Text.splitAt ';' text)

end Segments
end StyleTypings
