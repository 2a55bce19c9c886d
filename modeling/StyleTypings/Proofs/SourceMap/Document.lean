import StyleTypings.Proofs.Json.Reading
import StyleTypings.Proofs.SourceMap.Segments
import StyleTypings.SourceMap.Document

/-!
# Source maps read back

A map without names, texts of its sources and marks of tools is written as an
object of six members at most. Read back it is the same map, but for mappings
that repeat the one before them; those do not change any answer. Every map that
is built from entries is of that kind.
-/

namespace StyleTypings
namespace SourceMap

/-- A map of points in order, without names, texts and marks of tools. -/
structure Plain (map : SourceMap) : Prop where
  root : map.sourceRoot = some []
  contents : map.contents = []
  names : map.names = []
  ignored : map.ignored = []
  debugId : map.debugId = none
  ordered : map.mappings.Pairwise (Mapping.precedes · ·)
  points : ∀ mapping ∈ map.mappings, mapping.isRange = false
  refer : ∀ mapping ∈ map.mappings, Segments.Refers ⟨map.sources.length, 0⟩ mapping

/-- The number of the version that is written. -/
def version : NumberLiteral :=
  ⟨false, ['3'], [], none⟩

/-- The members of the object that a plain map is written as. -/
def members (map : SourceMap) : List (Option Text × Json) :=
  [(some "version".toList, Json.number version)] ++
    (map.file.toList.map fun file => (some "file".toList, .string (some file))) ++
    [ (some "sources".toList, .array (map.sources.map fun source => .string (some source))),
      (some "sourceRoot".toList, .string (some [])),
      (some "names".toList, .array []),
      (some "mappings".toList, .string (some (Segments.encode map.mappings))) ]

/-- The document that a plain map is read as. -/
def document (map : SourceMap) : Document where
  file := map.file.map fun file => .string (some file)
  sources := map.sources.map some
  sourceRoot := some []
  contents := []
  names := []
  rows := []
  segments := Segments.encode map.mappings
  ignored := []
  hasFunctionMaps := false
  debugId := none

/-- The number of the version is read before whatever ends it. -/
theorem reads_version : Json.Reads "3".toList (.number version) := by
  refine ⟨[.scalar (.number version)], fun rest delimited => ?_, fun _ _ => rfl⟩
  cases rest with
  | nil => exact Json.tokens?_of_next? rfl rfl (Nat.le_refl _)
  | cons c rest =>
      have read : Json.Token.next? ('3' :: c :: rest) =
          some (.scalar (.number version), c :: rest) := by
        rcases delimited c rfl with rfl | rfl | rfl <;> rfl
      exact Json.tokens?_of_next? rfl read (Nat.le_refl _)

/-! ## Writing -/

/-- Without texts of the sources there is no field for them. -/
theorem contentsField?_eq_none
    {map : SourceMap}
    (empty : map.contents = []) :
    map.contentsField? = none := by
  have missing : ((List.range map.sources.length).map fun place =>
      (map.contents[place]?).join).any (·.isSome) = false := by
    rw [List.any_eq_false]
    intro text present
    obtain ⟨place, -, rfl⟩ := List.mem_map.mp present
    simp [empty]
  unfold contentsField?
  exact if_neg (by simpa using missing)

/-- Without ranges there are no rows of range markers. -/
theorem encode?_eq_none
    {mappings : List Mapping}
    (points : ∀ mapping ∈ mappings, mapping.isRange = false) :
    RangeMarkers.encode? mappings = none := by
  have noRange : mappings.any (·.isRange) = false := by
    rw [List.any_eq_false]
    intro mapping among
    simp [points mapping among]
  unfold RangeMarkers.encode?
  exact if_neg (by simp [noRange])

/-- A plain map is read as the object of its members. -/
theorem Plain.reads_toJson
    {map : SourceMap}
    (plain : Plain map) :
    Json.Reads map.toJson (.object (members map)) := by
  have field (name : String) {text : Text} {value : Json}
      (reads : Json.Reads text value) :
      Json.ReadsMember (name.toList, text) (some name.toList, value) :=
    ⟨rfl, reads⟩
  have sources : Json.Reads (Json.writeArray (map.sources.map Json.quote))
      (.array (map.sources.map fun source => .string (some source))) :=
    Json.reads_writeArray (Json.forall₂_reads_quote map.sources)
  have names : Json.Reads (Json.writeArray []) (.array []) :=
    Json.reads_writeArray .nil
  have segments := Json.reads_quote (Segments.encode map.mappings)
  have root := Json.reads_quote []
  unfold toJson
  apply Json.reads_writeObject
  unfold fields members
  rw [contentsField?_eq_none plain.contents, encode?_eq_none plain.points, plain.root,
    plain.names, plain.ignored, plain.debugId]
  cases map.file with
  | none =>
      exact .cons (field "version" reads_version) <| .cons (field "sources" sources) <|
        .cons (field "sourceRoot" root) <| .cons (field "names" names) <|
        .cons (field "mappings" segments) .nil
  | some file =>
      exact .cons (field "version" reads_version) <|
        .cons (field "file" (Json.reads_quote file)) <|
        .cons (field "sources" sources) <| .cons (field "sourceRoot" root) <|
        .cons (field "names" names) <| .cons (field "mappings" segments) .nil

/-! ## Reading -/

/-- An array of texts gives the texts. -/
theorem view_texts (room : Nat) (texts : List Text) :
    Json.View.list (Json.View.optional Json.View.text) (room + 1)
        (.array (texts.map fun text => .string (some text))) =
      some (texts.map some) := by
  rw [Json.View.list]
  induction texts with
  | nil => rfl
  | cons text rest inductionHypothesis =>
      rw [List.map_cons, List.mapM_cons, inductionHypothesis]
      rfl

/-- The members of a plain map are those of its document. -/
theorem documentOf_members (map : SourceMap) :
    documentOf 126 (fieldAmong (fieldNames.map (Json.member? (members map)))) =
      some (document map) := by
  have texts := view_texts 125 map.sources
  -- the list of sources is the only field whose reading does not compute
  have fields : documentOf 126
        (fieldAmong (fieldNames.map (Json.member? (members map)))) =
      ((Json.View.list (Json.View.optional Json.View.text) 126
          (.array (map.sources.map fun source => .string (some source)))).map some).bind
        fun sources => some { document map with sources := sources.getD [] } := by
    unfold members document
    cases map.file <;> rfl
  rw [fields, texts]
  rfl

/-- The members of a plain map are laid out as its document. -/
theorem layout_members (map : SourceMap) :
    layout maxDepth (.object (members map)) = some (.plain (document map)) := by
  have known : Json.record? fieldNames false false (.object (members map)) =
      some (fieldNames.map (Json.member? (members map))) := by
    have fit : Json.keysFit fieldNames false (members map) = true := by
      unfold members
      cases map.file <;> rfl
    exact if_pos fit
  have noSections :
      fieldAmong (fieldNames.map (Json.member? (members map))) "sections".toList = none := by
    unfold members
    cases map.file <;> rfl
  change layout (126 + 1) _ = _
  rw [layout]
  simp only [known, documentOf_members, noSections, Json.optionalField, bind, Option.bind]

/-- The document of a plain map gives the map without repeats. -/
theorem Plain.ofDocument_document
    {map : SourceMap}
    (plain : Plain map) :
    ofDocument (document map) =
      .ok { map with mappings := Mapping.dropRepeats none map.mappings } := by
  have decoded :=
    Segments.decode_encode plain.ordered plain.points plain.refer
  have sorted := Mapping.mergeSort_dropRepeats plain.ordered
  have sources : (map.sources.map some).map (·.getD []) = map.sources := by
    rw [List.map_map]
    exact List.map_id' map.sources
  obtain ⟨root, contents, names, ignored, debugId, -, -, -⟩ := plain
  rcases map with ⟨file, _, _, _, _, _, _, _⟩
  subst root contents names ignored debugId
  unfold ofDocument document
  simp only [List.length_map, List.length_nil, decoded, sorted, sources,
    List.mergeSort_nil, List.eraseDups_nil, bind, Except.bind]
  cases file <;> rfl

/-- A plain map is read back without repeats. -/
theorem Plain.ofJson_toJson
    {map : SourceMap}
    (plain : Plain map) :
    ofJson map.toJson =
      .ok { map with mappings := Mapping.dropRepeats none map.mappings } := by
  have unguarded : withoutGuard map.toJson = .ok map.toJson := rfl
  have read := Json.read?_of_reads plain.reads_toJson
  unfold ofJson
  rw [unguarded]
  simp only [bind, Except.bind, read, Option.bind, layout_members,
    plain.ofDocument_document]
  rfl

/-- A plain map is read back with the same file, the same answer for every
position and no mappings besides its own. -/
theorem Plain.exists_decoded
    {map : SourceMap}
    (plain : Plain map) :
    ∃ decoded,
      ofJson map.toJson = .ok decoded ∧
        decoded.file = map.file ∧
        (∀ generated, decoded.originalPosition? generated =
          map.originalPosition? generated) ∧
        decoded.mappings ⊆ map.mappings := by
  refine ⟨_, plain.ofJson_toJson, rfl, fun generated => ?_, ?_⟩
  · apply originalPosition?_dropRepeats <;> rfl
  · exact (Mapping.sublist_dropRepeats none map.mappings).subset

/-! ## Built maps -/

/-- A built map is plain. -/
theorem plain_build (file : Option Text) (entries : List Entry) :
    Plain (build file entries) := by
  have mapped : ∀ mapping ∈ (build file entries).mappings,
      ∃ entry : Entry, ∃ source ∈ (build file entries).sources,
        mapping = entry.toMapping ((build file entries).sources.idxOf source).toUInt32 := by
    intro mapping present
    obtain ⟨entry, among, made⟩ := List.mem_filterMap.mp (List.mem_mergeSort.mp present)
    have mappable := (List.mem_filter.mp among).2
    unfold Entry.mapping? at made
    rw [if_pos mappable] at made
    obtain ⟨source, named, rfl⟩ := Option.map_eq_some_iff.mp made
    refine ⟨entry, source, ?_, rfl⟩
    exact List.mem_eraseDups.mpr (List.mem_filterMap.mpr ⟨entry, among, named⟩)
  exact
    { root := rfl
      contents := rfl
      names := rfl
      ignored := rfl
      debugId := rfl
      ordered := Mapping.pairwise_mergeSort _
      points := by
        intro mapping present
        obtain ⟨entry, source, -, rfl⟩ := mapped mapping present
        rfl
      refer := by
        intro mapping present origin leads
        obtain ⟨entry, source, known, rfl⟩ := mapped mapping present
        obtain rfl := Option.some.inj leads
        refine ⟨?_, nofun⟩
        exact Nat.lt_of_le_of_lt (Nat.mod_le _ _) (List.idxOf_lt_length_iff.mpr known) }

/-- A built map written as JSON is read back, names the same file and answers
every position alike. -/
theorem ofJson_toJson_build (file : Option Text) (entries : List Entry) :
    ∃ decoded,
      ofJson (build file entries).toJson = .ok decoded ∧
        decoded.file = file ∧
        ∀ generated, decoded.originalPosition? generated =
          (build file entries).originalPosition? generated := by
  obtain ⟨decoded, read, named, answers, -⟩ := (plain_build file entries).exists_decoded
  exact ⟨decoded, read, named, answers⟩

end SourceMap
end StyleTypings
