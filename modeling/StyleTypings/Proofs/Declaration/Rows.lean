import StyleTypings.Proofs.Declaration.Mapping

/-!
# The rows of a declaration and their map

The text of a declaration is cut into rows, and each rendered line is the row of its
number, where the name of its class stands at the column of the line. Written as JSON
and read back, the map of a declaration has one mapping for each line whose class has a
position, and leads from every line to the position of its class.
-/

namespace StyleTypings

/-- What is written for a name: the name, or the name between quotes. -/
def ExportType.key (exportType : ExportType) (name : Text) : Text :=
  match exportType with
  | .named => name
  | .default => '\'' :: (name ++ ['\''])

namespace Declaration

/-- A text with a line feed at its end and nowhere else. -/
def IsRow (text : Text) : Prop :=
  ∃ body, text = body ++ ['\n'] ∧ '\n' ∉ body

/-- A row shows a key at a column. -/
def ShowsAt (row key : Text) (column : Nat) : Prop :=
  ∃ lead tail, row = lead ++ (key ++ tail) ∧ lead.length = column

/-- The text of a declaration consists of rows that show its lines; each of them ends at
its only line feed unless names have line feeds themselves. -/
def HasRows (classes : List NamedClass) (declaration : Declaration) : Prop :=
  ∃ rows : List Text, declaration.text = rows.flatten ∧
    ((∀ item ∈ classes, '\n' ∉ item.name) → ∀ row ∈ rows, IsRow row) ∧
    ∀ line ∈ declaration.lines, ∃ item row, classes[line.index]? = some item ∧
      rows[line.line - 1]? = some row ∧
      ShowsAt row (declaration.exportType.key item.name) line.column

theorem isRow_of_eq
    {row name : Text}
    (front back : Text)
    (made : row = front ++ (name ++ (back ++ ['\n'])))
    (before : '\n' ∉ front)
    (inside : '\n' ∉ name)
    (behind : '\n' ∉ back) :
    IsRow row :=
  ⟨front ++ (name ++ back), by simp [made], by simp [before, inside, behind]⟩

/-- Joined with line feeds and one more at the end, each part is a row. -/
theorem join_append_lineFeed
    {parts : List Text}
    (nonempty : parts ≠ []) :
    Text.join ['\n'] parts ++ ['\n'] = (parts.map (· ++ ['\n'])).flatten := by
  induction parts with
  | nil => exact absurd rfl nonempty
  | cons first others inductionHypothesis =>
      cases others with
      | nil => simp [Text.join]
      | cons second more =>
          rw [Text.join_cons_cons, List.append_assoc, List.append_assoc,
            inductionHypothesis (List.cons_ne_nil second more)]
          simp

theorem hasRows_renderNamed (classes : List NamedClass) :
    (renderNamed classes).HasRows classes := by
  have listed : ∀ entry ∈ kept classes, classes[entry.2]? = some entry.1 := by
    intro entry present
    exact List.mem_zipIdx_iff_getElem?.mp (List.mem_filter.mp present).1
  let row := fun entry : NamedClass × Nat => namedLine entry.1.name ++ ['\n']
  by_cases nothing : kept classes = []
  · refine ⟨[['\n']], ?_, fun _ row present => ?_, fun line present => ?_⟩
    · unfold renderNamed
      simp [nothing, Text.join]
    · obtain rfl := List.mem_singleton.mp present
      exact ⟨[], rfl, List.not_mem_nil⟩
    · rw [lines_renderNamed, nothing] at present
      exact absurd present List.not_mem_nil
  · refine ⟨(kept classes).map row, ?_, fun plain made present => ?_, fun line present => ?_⟩
    · have parts : (kept classes).map (fun entry => namedLine entry.1.name) ≠ [] := by
        simpa using nothing
      have joined := join_append_lineFeed parts
      rwa [List.map_map] at joined
    · obtain ⟨entry, among, rfl⟩ := List.mem_map.mp present
      have inside := plain entry.1 (List.mem_of_getElem? (listed entry among))
      exact isRow_of_eq namedLead ": string;"
        (by simp [row, namedLine]) (by decide) inside (by decide)
    · rw [lines_renderNamed] at present
      obtain ⟨entry, among, rfl⟩ := List.mem_map.mp present
      have place := List.mem_zipIdx_iff_getElem?.mp among
      refine ⟨entry.1.1, row entry.1, listed _ (List.mem_of_getElem? place), ?_,
        namedLead, ": string;".toList ++ ['\n'], ?_, rfl⟩
      · change ((kept classes).map row)[entry.2]? = _
        rw [List.getElem?_map, place]
        rfl
      · change namedLine entry.1.1.name ++ ['\n'] =
          namedLead ++ (entry.1.1.name ++ (": string;".toList ++ ['\n']))
        simp [namedLine]

/-- The rows behind the properties. -/
def interfaceEndRows : List Text :=
  [ "\x7d\n", "\n", "export type ClassNames = keyof Styles;\n", "\n",
    "declare const styles: Styles;\n", "\n", "export default styles;\n" ]

theorem hasRows_renderDefault (classes : List NamedClass) :
    (renderDefault classes).HasRows classes := by
  let opening : Text := "export interface Styles \x7b\n"
  let properties := classes.map fun item => propertyLine item.name
  refine ⟨opening :: (properties ++ interfaceEndRows), ?_, fun plain row present => ?_,
    fun line present => ?_⟩
  · have joined : classes.flatMap (fun item => propertyLine item.name) = properties.flatten :=
      List.flatMap_def
    have ending : interfaceEnd = interfaceEndRows.flatten := by decide +kernel
    unfold renderDefault
    simp only
    rw [joined, ending, List.flatten_cons, List.flatten_append, List.append_assoc]
  · have fixed : ∀ row ∈ opening :: interfaceEndRows, row = row.dropLast ++ ['\n'] ∧
        '\n' ∉ row.dropLast := by decide +kernel
    rcases List.mem_cons.mp present with isFirst | behind
    · exact ⟨_, fixed row (isFirst ▸ List.mem_cons_self)⟩
    · rcases List.mem_append.mp behind with isProperty | isEnd
      · obtain ⟨item, among, rfl⟩ := List.mem_map.mp isProperty
        exact isRow_of_eq propertyLead "': string;"
          (by simp [propertyLine]) (by decide) (plain item among) (by decide)
      · exact ⟨_, fixed row (List.mem_cons_of_mem opening isEnd)⟩
  · rw [lines_renderDefault] at present
    obtain ⟨entry, among, rfl⟩ := List.mem_map.mp present
    have place := List.mem_zipIdx_iff_getElem?.mp among
    refine ⟨entry.1, propertyLine entry.1.name, place, ?_,
      "  ".toList, ": string;\n".toList, ?_, rfl⟩
    · change (opening :: (properties ++ interfaceEndRows))[entry.2 + 1]? = _
      have shown : properties[entry.2]? = some (propertyLine entry.1.name) := by
        rw [List.getElem?_map, place]
        rfl
      rw [List.getElem?_cons_succ,
        List.getElem?_append_left (List.getElem?_eq_some_iff.mp shown).1, shown]
    · change propertyLine entry.1.name =
        "  ".toList ++ (('\'' :: (entry.1.name ++ ['\''])) ++ ": string;\n".toList)
      simp [propertyLine, propertyLead]

/-- Every rendered line shows the name of its class. -/
theorem hasRows_of_render?
    {classes : List NamedClass}
    {exportType : ExportType}
    {declaration : Declaration}
    (rendered : render? classes exportType = some declaration) :
    declaration.HasRows classes := by
  unfold render? at rendered
  split at rendered
  · exact absurd rendered nofun
  · cases exportType with
    | named => exact Option.some.inj rendered ▸ hasRows_renderNamed classes
    | default => exact Option.some.inj rendered ▸ hasRows_renderDefault classes

/-! ## The map -/

/-- The entries of a declaration lie at different places. -/
theorem Lined.apart
    {classes : List NamedClass}
    {declaration : Declaration}
    (lined : declaration.Lined classes)
    (words : declaration.HasWords)
    (stylesheetFile : Text) :
    (declaration.lines.filterMap (entryOf? classes stylesheetFile)).Pairwise
      fun left right => left.generated ≠ right.generated := by
  have differ : declaration.lines.Pairwise fun left right =>
      left.generated ≠ right.generated := by
    refine (List.pairwise_map.mp lined.once).imp_of_mem ?_
    intro left right isLeft isRight differs same
    have numbers := congrArg (fun place => place.line.toNat) same
    exact differs ((words.toNat_line isLeft).symm.trans
      (numbers.trans (words.toNat_line isRight)))
  refine differ.filterMap _ ?_
  intro left right differs entry made other madeToo same
  obtain ⟨_, _, -, -, rfl⟩ := entryOf?_eq_some.mp made
  obtain ⟨_, _, -, -, rfl⟩ := entryOf?_eq_some.mp madeToo
  exact differs same

/-- Where a map leads from the lines of a declaration: from each to the position of its
class, in the style sheet if the position names no file, and nowhere if there is none;
and there are as many mappings as lines with a position. -/
structure LeadsToClasses
    (classes : List NamedClass)
    (stylesheetFile : Text)
    (declaration : Declaration)
    (map : SourceMap) : Prop where
  line : ∀ line ∈ declaration.lines, ∃ item, classes[line.index]? = some item ∧
    map.originalPosition? line.generated = item.position.map fun position =>
      { position with source := some (position.source.getD stylesheetFile) }
  size : map.size = declaration.lines.countP fun line =>
    (classes[line.index]?.bind (·.position)).isSome

/-- A line has an entry if its class has a position. -/
theorem isSome_entryOf?
    (classes : List NamedClass)
    (stylesheetFile : Text)
    (line : DeclarationLine) :
    (entryOf? classes stylesheetFile line).isSome =
      (classes[line.index]?.bind (·.position)).isSome := by
  unfold entryOf?
  cases found : classes[line.index]? with
  | none => rfl
  | some item => cases known : item.position <;> simp [known]

/-- The entries of known positions can be mapped. -/
theorem Lined.isMappable_of_mem
    {classes : List NamedClass}
    {declaration : Declaration}
    (lined : declaration.Lined classes)
    (words : declaration.HasWords)
    (known : ∀ item ∈ classes, ∀ position, item.position = some position →
      position.line ≠ 0)
    (stylesheetFile : Text) :
    ∀ entry ∈ declaration.lines.filterMap (entryOf? classes stylesheetFile),
      entry.isMappable = true := by
  intro entry among
  obtain ⟨line, present, made⟩ := List.mem_filterMap.mp among
  obtain ⟨item, position, found, positioned, rfl⟩ := entryOf?_eq_some.mp made
  have numbered := lined.toUInt32_ne_zero words present
  have numberedToo := known item (List.mem_of_getElem? found) position positioned
  simp [SourceMap.Entry.isMappable, DeclarationLine.generated, numbered, numberedToo]

theorem Lined.leadsToClasses_toSourceMap
    {classes : List NamedClass}
    {declaration : Declaration}
    (lined : declaration.Lined classes)
    (words : declaration.HasWords)
    (known : ∀ item ∈ classes, ∀ position, item.position = some position →
      position.line ≠ 0 ∧ position.column ≠ SourceMap.absent)
    (declarationFile stylesheetFile : Text) :
    declaration.LeadsToClasses classes stylesheetFile
      (declaration.toSourceMap classes declarationFile stylesheetFile) := by
  refine ⟨fun line present => ?_, ?_⟩
  · have within := lined.index_lt line present
    have found := List.getElem?_eq_getElem within
    refine ⟨classes[line.index], found, ?_⟩
    cases positioned : classes[line.index].position with
    | none =>
        exact lined.originalPosition?_toSourceMap_eq_none words declarationFile stylesheetFile
          present found positioned
    | some position =>
        have valid := known _ (List.getElem_mem within) position positioned
        exact lined.originalPosition?_toSourceMap words declarationFile stylesheetFile present
          found positioned valid.1 valid.2
  · have mappable := lined.isMappable_of_mem words
      (fun item among position positioned => (known item among position positioned).1)
      stylesheetFile
    refine (SourceMap.size_build mappable).trans ?_
    rw [List.length_filterMap_eq_countP]
    exact List.countP_congr fun line _ => by rw [isSome_entryOf?]

/-- Classes are rendered with each line at its place, and the map of the declaration,
written as JSON and read back, leads from each line to the position of its class. Only
lines whose numbers are words can be looked up. -/
theorem map_leads_to_classes
    {classes : List NamedClass}
    (nonempty : classes ≠ [])
    (known : ∀ item ∈ classes, ∀ position, item.position = some position →
      position.line ≠ 0 ∧ position.column ≠ SourceMap.absent)
    (exportType : ExportType)
    (declarationFile stylesheetFile : Text) :
    ∃ declaration, render? classes exportType = some declaration ∧
      declaration.HasRows classes ∧
      (declaration.HasWords → ∃ map,
        SourceMap.ofJson
            (declaration.toSourceMap classes declarationFile stylesheetFile).toJson =
          .ok map ∧
        declaration.LeadsToClasses classes stylesheetFile map) := by
  cases rendered : render? classes exportType with
  | none => exact absurd (render?_eq_none_iff.mp rendered) nonempty
  | some declaration =>
      have lined := lined_of_render? rendered
      refine ⟨declaration, rfl, hasRows_of_render? rendered, fun words => ?_⟩
      exact ⟨_, SourceMap.ofJson_toJson_build_of_apart (lined.apart words stylesheetFile),
        lined.leadsToClasses_toSourceMap words known declarationFile stylesheetFile⟩

/-- A class that is rejected, one without a position, and one that names its file. -/
def placedClasses : List NamedClass :=
  [ ⟨"new".toList, some ⟨none, 1, 0⟩⟩, ⟨"a".toList, some ⟨none, 3, 1⟩⟩,
    ⟨"b".toList, none⟩, ⟨"c".toList, some ⟨some "base.less".toList, 7, 2⟩⟩ ]

theorem map_leads_to_classes_placed :
    placedClasses ≠ [] ∧
      (∀ item ∈ placedClasses, ∀ position, item.position = some position →
        position.line ≠ 0 ∧ position.column ≠ SourceMap.absent) ∧
      (renderNamed placedClasses).HasWords ∧
      ∃ map,
        SourceMap.ofJson ((renderNamed placedClasses).toSourceMap placedClasses
            "style.css.d.ts" "style.css").toJson = .ok map ∧
          (renderNamed placedClasses).LeadsToClasses placedClasses "style.css" map := by
  have nonempty : placedClasses ≠ [] := nofun
  have known : ∀ item ∈ placedClasses, ∀ position, item.position = some position →
      position.line ≠ 0 ∧ position.column ≠ SourceMap.absent := by
    decide
  have words : (renderNamed placedClasses).HasWords := by
    unfold HasWords
    decide +kernel
  obtain ⟨declaration, rendered, -, leads⟩ :=
    map_leads_to_classes nonempty known .named "style.css.d.ts" "style.css"
  obtain rfl := Option.some.inj rendered
  exact ⟨nonempty, known, words, leads words⟩

end Declaration
end StyleTypings
