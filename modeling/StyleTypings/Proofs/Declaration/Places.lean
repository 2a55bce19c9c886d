import StyleTypings.Proofs.Classes.Locating
import StyleTypings.Proofs.Classes.Words
import StyleTypings.Proofs.Declaration.Rows
import StyleTypings.Proofs.Text.Lines

/-!
# Where the lines of a declaration stand

The number of a rendered line counts the classes rendered before it. Names are written as
they are, so a name with a line feed is on no line, and moves all lines behind it down.
Each line is where its number says just if no rendered name has a line feed; a format that
splits names into words drops the line feeds with the other blanks.
-/

namespace StyleTypings

/-! ## Pieces on lines -/

namespace Text

/-- A piece of a text begins on a line, counted from one, at a column. -/
def StandsAt (text piece : Text) (line column : Nat) : Prop :=
  ∃ front back, text = front ++ (piece ++ back) ∧ front.count '\n' + 1 = line ∧
    (lastLine front).length = column

theorem splitAt_cons_of_ne
    {separator c : Char}
    {rest first : Text}
    {others : List Text}
    (differs : c ≠ separator)
    (parts : splitAt separator rest = first :: others) :
    splitAt separator (c :: rest) = (c :: first) :: others := by
  rw [splitAt, if_neg differs, parts]

/-- The line on which a text goes on is its last line up to the next line feed. -/
theorem getElem?_splitAt_count (front back : Text) :
    (splitAt '\n' (front ++ back))[front.count '\n']? =
      some (lastLine front ++ back.takeWhile (· != '\n')) := by
  induction front with
  | nil =>
      induction back with
      | nil => rfl
      | cons c rest inductionHypothesis =>
          by_cases lineFeed : c = '\n'
          · simp [lineFeed, splitAt, lastLine]
          · obtain ⟨first, others, parts⟩ :=
              List.exists_cons_of_ne_nil (splitAt_ne_nil '\n' rest)
            rw [List.nil_append, parts] at inductionHypothesis
            rw [List.nil_append, splitAt_cons_of_ne lineFeed parts,
              List.takeWhile_cons_of_pos (by simpa using lineFeed)]
            simpa [lastLine] using inductionHypothesis
  | cons c rest inductionHypothesis =>
      rw [List.cons_append]
      by_cases lineFeed : c = '\n'
      · subst lineFeed
        rw [splitAt, if_pos rfl, List.count_cons_self, List.getElem?_cons_succ,
          inductionHypothesis, lastLine_cons_lineFeed]
      · obtain ⟨first, others, parts⟩ :=
          List.exists_cons_of_ne_nil (splitAt_ne_nil '\n' (rest ++ back))
        rw [parts] at inductionHypothesis
        rw [splitAt_cons_of_ne lineFeed parts, List.count_cons_of_ne lineFeed]
        by_cases broken : '\n' ∈ rest
        · obtain ⟨count, isCount⟩ :=
            Nat.exists_eq_succ_of_ne_zero (List.count_pos_iff.mpr broken).ne'
          rw [isCount, List.getElem?_cons_succ] at inductionHypothesis ⊢
          rw [inductionHypothesis, lastLine_cons_of_mem c broken]
        · have oneLine : '\n' ∉ c :: rest := by
            simpa [Ne.symm lineFeed] using broken
          rw [List.count_eq_zero.mpr broken, lastLine_of_notMem broken] at inductionHypothesis
          rw [List.count_eq_zero.mpr broken, lastLine_of_notMem oneLine]
          simpa using inductionHypothesis

/-- A piece without a line feed is on its line. -/
theorem StandsAt.exists_row
    {text piece : Text}
    {number column : Nat}
    (stands : StandsAt text piece (number + 1) column)
    (oneLine : '\n' ∉ piece) :
    ∃ row, (splitAt '\n' text)[number]? = some row ∧ piece <+: row.drop column := by
  obtain ⟨front, back, rfl, isLine, rfl⟩ := stands
  refine ⟨_, Nat.succ.inj isLine ▸ getElem?_splitAt_count front (piece ++ back), ?_⟩
  have plain : ∀ c ∈ piece, (c != '\n') = true := by
    intro c present
    simpa using fun isFeed : c = '\n' => oneLine (isFeed ▸ present)
  rw [List.drop_left, List.takeWhile_append_of_pos plain]
  exact List.prefix_append piece _

/-- Only a piece without a line feed is on a line. -/
theorem lineFeed_notMem_of_prefix_row
    {text piece row : Text}
    {number column : Nat}
    (found : (splitAt '\n' text)[number]? = some row)
    (shown : piece <+: row.drop column) :
    '\n' ∉ piece := by
  intro present
  have inRow := List.mem_of_mem_drop (shown.subset present)
  exact notMem_of_mem_splitAt (List.mem_of_getElem? found) inRow

end Text

/-! ## Rows of a declaration -/

namespace ExportType

/-- What stands before the key of a name on its line. -/
def lead : ExportType → Text
  | .named => Declaration.namedLead
  | .default => "  "

/-- What is written for a name. -/
def row (exportType : ExportType) (name : Text) : Text :=
  exportType.lead ++ ((exportType.key name ++ ": string;") ++ ['\n'])

theorem lineFeed_mem_key_iff {exportType : ExportType} {name : Text} :
    '\n' ∈ exportType.key name ++ ": string;" ↔ '\n' ∈ name := by
  cases exportType <;> simp [key]

theorem lineFeed_notMem_lead (exportType : ExportType) : '\n' ∉ exportType.lead := by
  cases exportType <;> decide

/-- A row has the line feeds of its name and the one at its end. -/
theorem count_row (exportType : ExportType) (name : Text) :
    (exportType.row name).count '\n' = name.count '\n' + 1 := by
  have ending : (": string;" : Text).count '\n' = 0 := by decide
  have key : (exportType.key name).count '\n' = name.count '\n' := by
    cases exportType <;> simp [key]
  unfold row
  rw [List.count_append, List.count_append, List.count_append, key, ending,
    List.count_eq_zero.mpr exportType.lineFeed_notMem_lead, List.count_singleton_self]
  omega

theorem count_rows (exportType : ExportType) (names : List Text) :
    (names.flatMap exportType.row).count '\n' =
      names.length + names.flatten.count '\n' := by
  induction names with
  | nil => rfl
  | cons name others inductionHypothesis =>
      rw [List.flatMap_cons, List.count_append, count_row, inductionHypothesis,
        List.flatten_cons, List.count_append, List.length_cons]
      omega

/-- Rows end with their line. -/
theorem lastLine_append_rows
    {exportType : ExportType}
    {opening : Text}
    (closed : Text.lastLine opening = [])
    (names : List Text) :
    Text.lastLine (opening ++ names.flatMap exportType.row) = [] := by
  rcases List.eq_nil_or_concat' names with rfl | ⟨others, name, rfl⟩
  · rw [List.flatMap_nil, List.append_nil, closed]
  · have ends : ∃ front, opening ++ (others ++ [name]).flatMap exportType.row =
        front ++ ['\n'] := by
      refine ⟨opening ++ (others.flatMap exportType.row ++
        (exportType.lead ++ (exportType.key name ++ ": string;"))), ?_⟩
      simp [row]
    obtain ⟨front, isFront⟩ := ends
    rw [isFront, Text.lastLine_append_of_mem front List.mem_cons_self]
    rfl

/-- Behind rows that begin on a new line, a row has its key at the column of its lead, and
on the line that comes behind all line feeds of the rows. -/
theorem standsAt_rows
    {exportType : ExportType}
    {opening : Text}
    (closed : Text.lastLine opening = [])
    (before : List Text)
    (name : Text)
    (after : List Text)
    (ending : Text) :
    Text.StandsAt (opening ++ ((before ++ name :: after).flatMap exportType.row ++ ending))
      (exportType.key name ++ ": string;")
      (opening.count '\n' + before.length + 1 + before.flatten.count '\n')
      exportType.lead.length := by
  refine ⟨(opening ++ before.flatMap exportType.row) ++ exportType.lead,
    '\n' :: (after.flatMap exportType.row ++ ending), ?_, ?_, ?_⟩
  · simp [row]
  · rw [List.count_append, List.count_append, count_rows,
      List.count_eq_zero.mpr exportType.lineFeed_notMem_lead]
    omega
  · rw [Text.lastLine_append_of_notMem _ exportType.lineFeed_notMem_lead,
      lastLine_append_rows closed, List.nil_append]

end ExportType

namespace Declaration

/-- The names of the classes on some lines. -/
def namesOn (classes : List NamedClass) (lines : List DeclarationLine) : List Text :=
  lines.filterMap fun line => classes[line.index]?.map NamedClass.name

theorem namesOn_map
    {α : Type}
    {classes : List NamedClass}
    {items : List α}
    {line : α → DeclarationLine}
    {item : α → NamedClass}
    (listed : ∀ entry ∈ items, classes[(line entry).index]? = some (item entry)) :
    namesOn classes (items.map line) = items.map fun entry => (item entry).name := by
  induction items with
  | nil => rfl
  | cons entry others inductionHypothesis =>
      obtain ⟨found, later⟩ := List.forall_mem_cons.mp listed
      have rest := inductionHypothesis later
      unfold namesOn at rest ⊢
      rw [List.map_cons, List.filterMap_cons, found, rest]
      rfl

theorem length_namesOn
    {classes : List NamedClass}
    {lines : List DeclarationLine}
    (known : ∀ line ∈ lines, line.index < classes.length) :
    (namesOn classes lines).length = lines.length := by
  have all : ∀ line ∈ lines, (classes[line.index]?.map NamedClass.name).isSome = true := by
    intro line present
    rw [List.getElem?_eq_getElem (known line present)]
    rfl
  unfold namesOn
  rw [List.length_filterMap_eq_countP]
  exact List.countP_eq_length.mpr all

/-- A declaration is the rows of its lines between an opening and an ending, and the
lines are numbered as if each row were one line. -/
structure IsWritten
    (classes : List NamedClass)
    (declaration : Declaration)
    (opening ending : Text) : Prop where
  closed : Text.lastLine opening = []
  text : declaration.text = opening ++
    ((namesOn classes declaration.lines).flatMap declaration.exportType.row ++ ending)
  place : ∀ (count : Nat) (line : DeclarationLine), declaration.lines[count]? = some line →
    line.line = opening.count '\n' + count + 1 ∧
      line.column = declaration.exportType.lead.length

/-- The lines of named exports have the names that are kept. -/
theorem namesOn_renderNamed (classes : List NamedClass) :
    namesOn classes (renderNamed classes).lines =
      (kept classes).map fun entry => entry.1.name := by
  have listed : ∀ entry ∈ (kept classes).zipIdx, classes[entry.1.2]? = some entry.1.1 := by
    intro entry among
    have isKept := List.fst_mem_of_mem_zipIdx among
    exact List.mem_zipIdx_iff_getElem?.mp (List.mem_filter.mp isKept).1
  rw [lines_renderNamed, namesOn_map listed]
  calc _ = ((kept classes).zipIdx.map Prod.fst).map fun entry => entry.1.name :=
        List.map_map.symm
    _ = _ := by rw [List.zipIdx_map_fst]

theorem exists_isWritten_renderNamed (classes : List NamedClass) :
    ∃ ending, (renderNamed classes).IsWritten classes [] ending := by
  have names := namesOn_renderNamed classes
  have place : ∀ (count : Nat) (line : DeclarationLine),
      (renderNamed classes).lines[count]? = some line →
        line.line = ([] : Text).count '\n' + count + 1 ∧ line.column = namedLead.length := by
    intro count line found
    rw [lines_renderNamed, List.getElem?_map, List.getElem?_zipIdx, Option.map_map] at found
    obtain ⟨entry, -, rfl⟩ := Option.map_eq_some_iff.mp found
    exact ⟨rfl, rfl⟩
  by_cases nothing : kept classes = []
  · refine ⟨['\n'], rfl, ?_, place⟩
    rw [names]
    simp [renderNamed, nothing, Text.join]
  · refine ⟨[], rfl, ?_, place⟩
    have parts : (kept classes).map (fun entry => namedLine entry.1.name) ≠ [] := by
      simpa using nothing
    have joined := join_append_lineFeed parts
    rw [List.map_map] at joined
    rw [names, List.flatMap_map, List.append_nil, List.nil_append]
    refine joined.trans ?_
    rw [List.flatMap_def]
    refine congrArg List.flatten (List.map_congr_left fun entry _ => ?_)
    simp [namedLine, ExportType.row, ExportType.lead, ExportType.key, renderNamed]

theorem isWritten_renderDefault (classes : List NamedClass) :
    (renderDefault classes).IsWritten classes "export interface Styles \x7b\n"
      interfaceEnd := by
  have names : namesOn classes (renderDefault classes).lines =
      classes.map NamedClass.name := by
    have listed : ∀ entry ∈ classes.zipIdx, classes[entry.2]? = some entry.1 :=
      fun entry among => List.mem_zipIdx_iff_getElem?.mp among
    rw [lines_renderDefault, namesOn_map listed]
    calc _ = (classes.zipIdx.map Prod.fst).map NamedClass.name := List.map_map.symm
      _ = _ := by rw [List.zipIdx_map_fst]
  refine ⟨by decide, ?_, fun count line found => ?_⟩
  · rw [names, List.flatMap_map]
    unfold renderDefault
    simp only
    rw [List.append_assoc]
    refine congrArg (_ ++ ·) (congrArg (· ++ _) (List.flatMap_congr fun item _ => ?_))
    simp [propertyLine, propertyLead, ExportType.row, ExportType.lead, ExportType.key]
  · rw [lines_renderDefault, List.getElem?_map, List.getElem?_zipIdx, Option.map_map] at found
    obtain ⟨item, -, rfl⟩ := Option.map_eq_some_iff.mp found
    refine ⟨?_, rfl⟩
    have opened : ("export interface Styles \x7b\n" : Text).count '\n' = 1 := by decide
    rw [opened]
    simp only [Function.comp_apply]
    omega

/-- Some opening and ending of each declaration. -/
theorem exists_isWritten
    {classes : List NamedClass}
    {exportType : ExportType}
    {declaration : Declaration}
    (rendered : render? classes exportType = some declaration) :
    ∃ opening ending, declaration.IsWritten classes opening ending := by
  unfold render? at rendered
  split at rendered
  · exact absurd rendered nofun
  · cases exportType with
    | named =>
        obtain rfl := Option.some.inj rendered
        exact ⟨[], exists_isWritten_renderNamed classes⟩
    | default =>
        obtain rfl := Option.some.inj rendered
        exact ⟨_, _, isWritten_renderDefault classes⟩

/-- The key of a class begins at the column that is recorded for it, as many lines below
the one that is recorded as the names rendered before it have line feeds. -/
theorem standsAt_of_render?
    {classes : List NamedClass}
    {exportType : ExportType}
    {declaration : Declaration}
    (rendered : render? classes exportType = some declaration)
    {before after : List DeclarationLine}
    {line : DeclarationLine}
    (split : declaration.lines = before ++ line :: after) :
    ∃ item, classes[line.index]? = some item ∧
      Text.StandsAt declaration.text (declaration.exportType.key item.name ++ ": string;")
        (line.line + (namesOn classes before).flatten.count '\n') line.column := by
  have lined := lined_of_render? rendered
  obtain ⟨opening, ending, written⟩ := exists_isWritten rendered
  have known : ∀ other ∈ before, other.index < classes.length := fun other among =>
    lined.index_lt other (split ▸ List.mem_append_left _ among)
  have within := lined.index_lt line (split ▸ List.mem_append_right _ List.mem_cons_self)
  have found := List.getElem?_eq_getElem within
  have names : namesOn classes declaration.lines =
      namesOn classes before ++ classes[line.index].name :: namesOn classes after := by
    rw [split]
    unfold namesOn
    rw [List.filterMap_append, List.filterMap_cons, found]
    rfl
  obtain ⟨isLine, isColumn⟩ := written.place before.length line (by simp [split])
  refine ⟨classes[line.index], found, ?_⟩
  have stands := declaration.exportType.standsAt_rows written.closed
    (namesOn classes before) classes[line.index].name (namesOn classes after) ending
  rwa [← names, ← written.text, length_namesOn known, ← isLine, ← isColumn] at stands

/-! ## Lines that are where their numbers say -/

/-- Split at its line feeds, the text of a declaration shows the class of a recorded line
on that line, from one, and at that column. -/
def Shows
    (classes : List NamedClass)
    (declaration : Declaration)
    (line : DeclarationLine) : Prop :=
  ∃ item number row, classes[line.index]? = some item ∧ line.line = number + 1 ∧
    (Text.splitAt '\n' declaration.text)[number]? = some row ∧
    declaration.exportType.key item.name ++ ": string;".toList <+: row.drop line.column

/-- All classes are shown where their lines say just if none of their names has a line
feed. -/
theorem forall_shows_iff
    {classes : List NamedClass}
    {exportType : ExportType}
    {declaration : Declaration}
    (rendered : render? classes exportType = some declaration) :
    (∀ line ∈ declaration.lines, declaration.Shows classes line) ↔
      ∀ name ∈ namesOn classes declaration.lines, '\n' ∉ name := by
  constructor
  · intro shown name among
    obtain ⟨line, present, isName⟩ := List.mem_filterMap.mp among
    obtain ⟨item, number, row, found, -, isRow, isPrefix⟩ := shown line present
    rw [found] at isName
    obtain rfl := Option.some.inj isName
    have plain := Text.lineFeed_notMem_of_prefix_row isRow isPrefix
    rwa [ExportType.lineFeed_mem_key_iff] at plain
  · intro plain line present
    obtain ⟨before, after, split⟩ := List.append_of_mem present
    obtain ⟨item, found, stands⟩ := standsAt_of_render? rendered split
    have isName : item.name ∈ namesOn classes declaration.lines :=
      List.mem_filterMap.mpr ⟨line, present, by rw [found]; rfl⟩
    have none : (namesOn classes before).flatten.count '\n' = 0 := by
      rw [List.count_eq_zero]
      intro inside
      obtain ⟨name, among, feed⟩ := List.mem_flatten.mp inside
      refine plain name ?_ feed
      rw [split]
      unfold namesOn at among ⊢
      rw [List.filterMap_append]
      exact List.mem_append_left _ among
    obtain ⟨number, isNumber⟩ :=
      Nat.exists_eq_succ_of_ne_zero ((lined_of_render? rendered).line_pos line present).ne'
    rw [none, Nat.add_zero, isNumber] at stands
    obtain ⟨row, isRow, isPrefix⟩ := stands.exists_row
      (fun feed => plain item.name isName (ExportType.lineFeed_mem_key_iff.mp feed))
    exact ⟨item, number, row, found, isNumber, isRow, isPrefix⟩

theorem exportType_of_render?
    {classes : List NamedClass}
    {exportType : ExportType}
    {declaration : Declaration}
    (rendered : render? classes exportType = some declaration) :
    declaration.exportType = exportType := by
  unfold render? at rendered
  split at rendered
  · exact absurd rendered nofun
  · cases exportType with
    | named => exact Option.some.inj rendered ▸ rfl
    | default => exact Option.some.inj rendered ▸ rfl

/-- The names on some lines are those of the exported classes. -/
theorem namesOn_eq
    {classes : List NamedClass}
    {format : NameFormat}
    {tokens : List Text}
    (isNames : classes.map NamedClass.name = tokens.map format.apply)
    (lines : List DeclarationLine) :
    namesOn classes lines =
      (lines.filterMap fun line => tokens[line.index]?).map format.apply := by
  unfold namesOn
  rw [List.map_filterMap]
  refine congrArg (lines.filterMap ·) (funext fun line => ?_)
  rw [← List.getElem?_map, ← List.getElem?_map, isNames]

/-- For every text with named classes, each recorded line has its class at its column, as
many lines below the recorded one as the names rendered before it have line feeds. All are
shown on their lines just if the format keeps no line feed of a rendered class; one that
splits names into words keeps none. -/
theorem lines_shown_iff
    {css : Text}
    {map : Option Text}
    {format : NameFormat}
    {classes : List NamedClass}
    {exportType : ExportType}
    {declaration : Declaration}
    (named : NamedClass.ofCompiled css map format = .ok classes)
    (rendered : render? classes exportType = some declaration) :
    let tokens := (Parser.parse css).sheet.exported
    declaration.exportType = exportType ∧
      (∀ before line after, declaration.lines = before ++ line :: after →
        ∃ token ∈ tokens[line.index]?,
          Text.StandsAt declaration.text (exportType.key (format.apply token) ++ ": string;")
            (line.line + (namesOn classes before).flatten.count '\n') line.column) ∧
      ((∀ line ∈ declaration.lines, declaration.Shows classes line) ↔
        ∀ line ∈ declaration.lines, ∀ token ∈ tokens[line.index]?,
          '\n' ∉ format.letters token) ∧
      (format ∈ [NameFormat.camel, .kebab, .param] →
        ∀ line ∈ declaration.lines, declaration.Shows classes line) := by
  intro tokens
  have isType := exportType_of_render? rendered
  obtain ⟨-, isNames⟩ := NamedClass.names_of_ofCompiled_eq_ok named
  have shown : (∀ line ∈ declaration.lines, declaration.Shows classes line) ↔
      ∀ line ∈ declaration.lines, ∀ token ∈ tokens[line.index]?,
        '\n' ∉ format.letters token := by
    rw [forall_shows_iff rendered, namesOn_eq isNames, List.forall_mem_map]
    simp only [NameFormat.lineFeed_mem_apply_iff]
    constructor
    · intro plain line present token isToken
      exact plain token (List.mem_filterMap.mpr ⟨line, present, isToken⟩)
    · intro plain token among
      obtain ⟨line, present, isToken⟩ := List.mem_filterMap.mp among
      exact plain line present token isToken
  refine ⟨isType, fun before line after split => ?_, shown, fun splits => ?_⟩
  · obtain ⟨item, found, stands⟩ := standsAt_of_render? rendered split
    have renamed : tokens[line.index]?.map format.apply = some item.name := by
      rw [← List.getElem?_map, ← isNames, List.getElem?_map, found]
      rfl
    obtain ⟨token, isToken, isName⟩ := Option.map_eq_some_iff.mp renamed
    rw [isType, ← isName] at stands
    exact ⟨token, isToken, stands⟩
  · refine shown.mpr fun line _ token _ kept => ?_
    cases format with
    | camel | kebab | param => exact NameFormat.lineFeed_notMem_filter token kept
    | dashes | none => exact absurd splits (by decide)

theorem lines_shown_iff_kebab :
    NamedClass.ofCompiled ".a\\a b {}\n.new {}\n.cD {}" none .kebab =
        .ok [⟨"a-b", none⟩, ⟨"new", none⟩, ⟨"c-d", none⟩] ∧
      ∃ declaration,
        render? [⟨"a-b", none⟩, ⟨"new", none⟩, ⟨"c-d", none⟩] .default = some declaration ∧
          ∀ line ∈ [⟨0, 2, 2⟩, ⟨1, 3, 2⟩, ⟨2, 4, 2⟩],
            declaration.Shows [⟨"a-b", none⟩, ⟨"new", none⟩, ⟨"c-d", none⟩] line := by
  have named : NamedClass.ofCompiled ".a\\a b {}\n.new {}\n.cD {}" none .kebab =
      .ok [⟨"a-b", none⟩, ⟨"new", none⟩, ⟨"c-d", none⟩] := by decide +kernel
  obtain ⟨-, -, -, shown⟩ := lines_shown_iff named (Eq.refl (render? _ .default))
  exact ⟨named, _, rfl, shown (by decide)⟩

/-- A class whose name has a line feed by an escape moves the next class off its line. -/
theorem lineFeed_moves_line :
    NamedClass.ofCompiled ".a\\a b {}\n.c {}" none .none =
        .ok [⟨"a\nb", none⟩, ⟨"c", none⟩] ∧
      ∃ declaration,
        render? [⟨"a\nb", none⟩, ⟨"c", none⟩] .default = some declaration ∧
          (⟨1, 3, 2⟩ : DeclarationLine) ∈ declaration.lines ∧
            ¬ declaration.Shows [⟨"a\nb", none⟩, ⟨"c", none⟩] ⟨1, 3, 2⟩ := by
  refine ⟨by decide +kernel, _, rfl, by decide, ?_⟩
  rintro ⟨item, number, row, found, isNumber, isRow, shown⟩
  obtain rfl := Option.some.inj found
  obtain rfl := Nat.succ.inj isNumber
  have moved : (Text.splitAt '\n' (renderDefault [⟨"a\nb", none⟩, ⟨"c", none⟩]).text)[2]? =
      some "b': string;".toList := by decide
  obtain rfl := Option.some.inj (moved.symm.trans isRow)
  exact absurd shown (by decide)

end Declaration
end StyleTypings
