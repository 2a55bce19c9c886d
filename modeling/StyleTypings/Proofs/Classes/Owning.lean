import StyleTypings.Proofs.Classes.Locating
import StyleTypings.Proofs.SourceMap.Building
import StyleTypings.Proofs.Stylesheet.Parsing
import StyleTypings.Proofs.Text.Lines

/-!
# Which rule a class owns

The position of a class is what a source map says of the last rule whose selector is the
name of the class by itself, when the blanks around the selector and one dot in front of it
are left out. So a rule for an element, or a step of an animation, stands for the class of
the same name. Every map leads to the last rule that the class owns, a dot with its name,
just if that is the last rule which stands for it.
-/

namespace StyleTypings
namespace ClassPosition

/-- A rule whose selector passes a test, with none behind it. -/
def IsLast
    (test : Text → Prop)
    (rules : List (Text × Nat))
    (rule : Text × Nat) : Prop :=
  ∃ before after, rules = before ++ rule :: after ∧ test rule.1 ∧
    ∀ other ∈ after, ¬ test other.1

/-- A selector stands for a class: it is the name without the blanks around it and without
one dot in front. -/
def StandsFor (name selector : Text) : Prop :=
  selectorName selector = name

/-- A selector is the class itself. -/
def IsOwn (name selector : Text) : Prop :=
  selector = '.' :: name

/-- The last rule that stands for a class is the last one that it owns. -/
def OwnsLast (rules : List (Text × Nat)) (name : Text) : Prop :=
  ∀ rule, IsLast (StandsFor name) rules rule ↔ IsLast (IsOwn name) rules rule

/-- What is found for the last rule that passes a test: what a map says of the place where
the rule begins, and nothing if there is none. -/
structure LeadsToLast
    (source : Text)
    (map : SourceMap)
    (test : Text → Prop)
    (found : Option OriginalPosition) : Prop where
  last : ∀ rule, IsLast test (Parser.parse source).sheet.rules rule →
    ∃ place, source.IsPlace rule.2 place ∧ found = map.originalPosition? place.toGenerated
  none : (∀ rule ∈ (Parser.parse source).sheet.rules, ¬ test rule.1) → found = none

/-! ## Last rules -/

theorem exists_isLast_or_none (test : Text → Prop) (rules : List (Text × Nat)) :
    (∃ rule, IsLast test rules rule) ∨ ∀ rule ∈ rules, ¬ test rule.1 := by
  induction rules with
  | nil => exact .inr nofun
  | cons first rest inductionHypothesis =>
      rcases inductionHypothesis with ⟨rule, before, after, rfl, passes, others⟩ | nothing
      · exact .inl ⟨rule, first :: before, after, rfl, passes, others⟩
      · by_cases passes : test first.1
        · exact .inl ⟨first, [], rest, rfl, passes, nothing⟩
        · exact .inr (List.forall_mem_cons.mpr ⟨passes, nothing⟩)

theorem IsLast.mem
    {test : Text → Prop}
    {rules : List (Text × Nat)}
    {rule : Text × Nat}
    (isLast : IsLast test rules rule) :
    rule ∈ rules := by
  obtain ⟨before, after, rfl, -⟩ := isLast
  exact List.mem_append_right _ List.mem_cons_self

theorem IsLast.passes
    {test : Text → Prop}
    {rules : List (Text × Nat)}
    {rule : Text × Nat}
    (isLast : IsLast test rules rule) :
    test rule.1 := by
  obtain ⟨_, _, _, passes, _⟩ := isLast
  exact passes

/-- Tests of the same last rule lead to the same. -/
theorem LeadsToLast.of_isLast_iff
    {source : Text}
    {map : SourceMap}
    {test test' : Text → Prop}
    {found : Option OriginalPosition}
    (leads : LeadsToLast source map test found)
    (same : ∀ rule, IsLast test (Parser.parse source).sheet.rules rule ↔
      IsLast test' (Parser.parse source).sheet.rules rule) :
    LeadsToLast source map test' found where
  last rule isLast := leads.last rule ((same rule).mpr isLast)
  none nothing := by
    refine leads.none ?_
    rcases exists_isLast_or_none test (Parser.parse source).sheet.rules with
      ⟨rule, isLast⟩ | neither
    · have isLast' := (same rule).mp isLast
      exact absurd isLast'.passes (nothing rule isLast'.mem)
    · exact neither

/-! ## Rules of a text -/

/-- The rules of a text begin at ascending offsets. -/
theorem ordered_rules (source : Text) :
    (Parser.parse source).sheet.rules.Pairwise fun earlier later => earlier.2 < later.2 := by
  have ordered := List.pairwise_map.mp (Parser.ascend_parse source).ordered
  unfold Stylesheet.rules
  refine ordered.filterMap _ fun left right before rule made other madeToo => ?_
  cases left with
  | rule =>
      cases right with
      | rule =>
          obtain rfl := Option.some.inj made
          obtain rfl := Option.some.inj madeToo
          exact before
      | _ => exact absurd madeToo nofun
  | _ => exact absurd made nofun

/-- Rules that begin in the same place are the same. -/
theorem eq_of_start_eq
    {source : Text}
    {left right : Text × Nat}
    (isLeft : left ∈ (Parser.parse source).sheet.rules)
    (isRight : right ∈ (Parser.parse source).sheet.rules)
    (same : left.2 = right.2) :
    left = right := by
  have ordered := ordered_rules source
  have forwards := ordered.imp fun {left right} before (same : left.2 = right.2) =>
    show left = right from absurd same (Nat.ne_of_lt before)
  have backwards := ordered.imp fun {right left} before (same : left.2 = right.2) =>
    show left = right from absurd same (Nat.ne_of_gt before)
  exact forwards.forall_of_forall_of_flip (fun _ _ _ => rfl) backwards isLeft isRight same

theorem solid_of_mem_rules
    {source : Text}
    {rule : Text × Nat}
    (present : rule ∈ (Parser.parse source).sheet.rules) :
    source.SolidAt rule.2 := by
  obtain ⟨node, isNode, starts⟩ := Stylesheet.exists_node_of_mem_rules present
  exact (Parser.ascend_parse source).solid _ (List.mem_map.mpr ⟨node, isNode, starts⟩)

/-- Every rule begins in a place of the text, of which a map is asked. -/
theorem exists_place
    {source : Text}
    {rule : Text × Nat}
    (present : rule ∈ (Parser.parse source).sheet.rules)
    (map : SourceMap) :
    ∃ place, source.IsPlace rule.2 place ∧
      ofOffset? source map rule.2 = map.originalPosition? place.toGenerated := by
  obtain ⟨place, isPlace⟩ := (solid_of_mem_rules present).boundary.exists_place
  refine ⟨place, isPlace, ?_⟩
  unfold ofOffset?
  rw [LineIndex.lineColumnUtf16?_of_isPlace isPlace]
  rfl

/-- What is found for a class is the last rule that stands for it. -/
theorem leadsToLast_standsFor (source : Text) (map : SourceMap) (name : Text) :
    LeadsToLast source map (StandsFor name)
      ((lastRule? (Parser.parse source).sheet.rules name).bind (ofOffset? source map)) where
  last rule isLast := by
    obtain ⟨place, isPlace, answer⟩ := exists_place isLast.mem map
    obtain ⟨before, after, split, stands, others⟩ := isLast
    refine ⟨place, isPlace, ?_⟩
    rw [split, lastRule?_append stands others]
    exact answer
  none nothing := by
    rw [lastRule?_eq_none nothing]
    rfl

/-! ## Maps that tell places apart -/

/-- An entry of a map from a place to a line of a file. -/
def entryAt (place : LineColumn) (line : UInt32) : SourceMap.Entry :=
  ⟨place.toGenerated, ⟨some [], line, 0⟩⟩

/-- A map that leads from two places to two lines. -/
def tellingMap (left right : LineColumn) : SourceMap :=
  .build none [entryAt left 1, entryAt right 2]

/-- The map leads from different places to different lines. -/
theorem originalPosition?_tellingMap
    {left right : LineColumn}
    (differ : left ≠ right)
    (leftLine : left.line.toNat + 1 < UInt32.size)
    (rightLine : right.line.toNat + 1 < UInt32.size) :
    (tellingMap left right).originalPosition? left.toGenerated = some ⟨some [], 1, 0⟩ ∧
      (tellingMap left right).originalPosition? right.toGenerated = some ⟨some [], 2, 0⟩ := by
  have apart : left.toGenerated ≠ right.toGenerated :=
    fun same => differ (LineColumn.toGenerated_inj same)
  have mappable {place : LineColumn} {line : UInt32}
      (short : place.line.toNat + 1 < UInt32.size) (counts : line ≠ 0) :
      (entryAt place line).isMappable = true := by
    have positive := SourceMap.succ_ne_zero_of_lt short
    simp [SourceMap.Entry.isMappable, entryAt, LineColumn.toGenerated, positive, counts]
  have few : [entryAt left 1, entryAt right 2].length ≤ UInt32.size := by
    change 2 ≤ UInt32.size
    decide
  have present : (0 : UInt32) ≠ SourceMap.absent := by decide
  constructor
  · refine @SourceMap.originalPosition?_build none _ (entryAt left 1) few List.mem_cons_self
      (mappable leftLine (by decide)) present ?_
    exact List.forall_mem_cons.mpr ⟨fun _ => rfl,
      List.forall_mem_singleton.mpr fun same => absurd same.symm apart⟩
  · refine @SourceMap.originalPosition?_build none _ (entryAt right 2) few
      (List.mem_cons_of_mem _ List.mem_cons_self) (mappable rightLine (by decide)) present ?_
    exact List.forall_mem_cons.mpr ⟨fun same => absurd same apart,
      List.forall_mem_singleton.mpr fun _ => rfl⟩

theorem LeadsToLast.eq
    {source : Text}
    {map : SourceMap}
    {test : Text → Prop}
    {found : Option OriginalPosition}
    (leads : LeadsToLast source map test found)
    {rule : Text × Nat}
    (isLast : IsLast test (Parser.parse source).sheet.rules rule)
    {place : LineColumn}
    (isPlace : source.IsPlace rule.2 place) :
    found = map.originalPosition? place.toGenerated := by
  obtain ⟨same, alsoPlace, answer⟩ := leads.last rule isLast
  rw [answer, isPlace.unique alsoPlace]

/-- A rule of a text that is not too long begins on a line that can be counted. -/
theorem exists_place_of_small
    {source : Text}
    (small : source.byteSize < UInt32.size)
    {rule : Text × Nat}
    (present : rule ∈ (Parser.parse source).sheet.rules) :
    ∃ place, source.IsPlace rule.2 place ∧ place.line.toNat + 1 < UInt32.size := by
  have solid := solid_of_mem_rules present
  obtain ⟨place, isPlace⟩ := solid.boundary.exists_place
  have inside := solid.lt_byteSize
  exact ⟨place, isPlace, (isPlace.lt_size (by omega)).1⟩

/-- If every map leads to the last rule of two tests alike, they have the same last rule. -/
theorem isLast_of_leadsToLast
    {source : Text}
    (small : source.byteSize < UInt32.size)
    {test test' : Text → Prop}
    {found : SourceMap → Option OriginalPosition}
    (leads : ∀ map, LeadsToLast source map test (found map))
    (leads' : ∀ map, LeadsToLast source map test' (found map))
    {rule : Text × Nat}
    (isLast : IsLast test (Parser.parse source).sheet.rules rule) :
    IsLast test' (Parser.parse source).sheet.rules rule := by
  obtain ⟨place, isPlace, line⟩ := exists_place_of_small small isLast.mem
  rcases exists_isLast_or_none test' (Parser.parse source).sheet.rules with
    ⟨other, isLast'⟩ | nothing
  · obtain ⟨place', isPlace', line'⟩ := exists_place_of_small small isLast'.mem
    by_cases same : rule.2 = other.2
    · rw [eq_of_start_eq isLast.mem isLast'.mem same]
      exact isLast'
    · have differ : place ≠ place' := by
        rintro rfl
        exact same (isPlace.injective small isPlace')
      obtain ⟨first, second⟩ := originalPosition?_tellingMap differ line line'
      have answer := (leads (tellingMap place place')).eq isLast isPlace
      have answer' := (leads' (tellingMap place place')).eq isLast' isPlace'
      rw [first] at answer
      rw [second, answer] at answer'
      exact absurd answer' (by decide)
  · let next : LineColumn := ⟨place.line, place.column + 1⟩
    have differ : place ≠ next := fun same => by
      simpa [next] using congrArg LineColumn.column same
    have answer := (leads (tellingMap place next)).eq isLast isPlace
    rw [(originalPosition?_tellingMap differ line line).1] at answer
    exact absurd ((leads' (tellingMap place next)).none nothing) (by simp [answer])

/-! ## Whole texts -/

/-- What some classes of a text are mapped to. -/
structure Claims (source : Text) (names : List Text) : Prop where
  /-- One after the other: what the map says of the last rule that stands for the class. -/
  found : ∀ map,
    List.Forall₂ (fun name => LeadsToLast source map (StandsFor name)) names
      (ofClasses (Parser.parse source).sheet source (some map) names)
  /-- Every map leads to the last rules of the classes themselves if these are the last
  ones that stand for them, -/
  own : (∀ name ∈ names, OwnsLast (Parser.parse source).sheet.rules name) → ∀ map,
    List.Forall₂ (fun name => LeadsToLast source map (IsOwn name)) names
      (ofClasses (Parser.parse source).sheet source (some map) names)
  /-- and only then, where offsets into the text are words. -/
  only : source.byteSize < UInt32.size →
    (∀ map,
      List.Forall₂ (fun name => LeadsToLast source map (IsOwn name)) names
        (ofClasses (Parser.parse source).sheet source (some map) names)) →
    ∀ name ∈ names, OwnsLast (Parser.parse source).sheet.rules name

/-- Classes are mapped to the last rules that stand for them. -/
theorem claims (source : Text) (names : List Text) : Claims source names := by
  have listed (test : Text → Text → Prop) (map : SourceMap) :
      List.Forall₂ (fun name => LeadsToLast source map (test name)) names
          (ofClasses (Parser.parse source).sheet source (some map) names) ↔
        ∀ name ∈ names, LeadsToLast source map (test name)
          ((lastRule? (Parser.parse source).sheet.rules name).bind (ofOffset? source map)) := by
    unfold ofClasses
    simp only [List.forall₂_map_right_iff, List.forall₂_same]
  constructor
  · exact fun map => (listed _ map).mpr fun name _ => leadsToLast_standsFor source map name
  · intro owns map
    refine (listed _ map).mpr fun name present => ?_
    exact (leadsToLast_standsFor source map name).of_isLast_iff (owns name present)
  · intro small leads name present rule
    have stands := fun map => leadsToLast_standsFor source map name
    have owns := fun map => (listed _ map).mp (leads map) name present
    exact ⟨isLast_of_leadsToLast small stands owns, isLast_of_leadsToLast small owns stands⟩

/-- A class and an element of the same name. -/
def shadowed : Text :=
  ".a \x7b\x7d\na \x7b\x7d"

/-- A map of the two lines of that style sheet. -/
def shadowedMap : SourceMap :=
  { file := none
    sources := ["style.less"]
    sourceRoot := none
    contents := []
    names := []
    mappings := [⟨0, 0, some ⟨0, 9, 0, none⟩, false⟩, ⟨1, 0, some ⟨0, 19, 0, none⟩, false⟩]
    ignored := []
    debugId := none }

/-- A class is mapped to an element of its name behind it. -/
theorem element_stands_for_class :
    (Parser.parse shadowed).sheet.exported = ["a".toList] ∧
      ofClasses (Parser.parse shadowed).sheet shadowed (some shadowedMap) ["a"] =
        [some ⟨some "style.less".toList, 20, 0⟩] ∧
      IsLast (IsOwn "a") (Parser.parse shadowed).sheet.rules (".a", 0) ∧
      ¬ LeadsToLast shadowed shadowedMap (IsOwn "a")
        (some ⟨some "style.less".toList, 20, 0⟩) := by
  have rules : (Parser.parse shadowed).sheet.rules = [(".a".toList, 0), ("a".toList, 6)] := by
    decide +kernel
  have isLast : IsLast (IsOwn "a") (Parser.parse shadowed).sheet.rules (".a", 0) := by
    rw [rules]
    exact ⟨[], _, rfl, rfl, by simp [IsOwn]⟩
  refine ⟨by decide +kernel, by decide +kernel, isLast, fun leads => ?_⟩
  have begins : shadowed.IsPlace 0 ⟨0, 0⟩ := ⟨[], shadowed, rfl, rfl, rfl⟩
  have answer := leads.eq isLast begins
  exact absurd answer (by decide +kernel)

end ClassPosition
end StyleTypings
