import StyleTypings.Classes.Named
import StyleTypings.Proofs.Compile.Units

/-!
# Which rule a class comes from

The position of a class is that of the last rule, in document order, whose
selector is the class by itself. The named classes of a compiled text are its
exported classes in order, each with that position.
-/

namespace StyleTypings

namespace ClassPosition

/-- The rule behind which no other has the name as its selector. -/
theorem lastRule?_append
    {before after : List (Text × Nat)}
    {rule : Text × Nat}
    {name : Text}
    (isLast : selectorName rule.1 = name)
    (others : ∀ other ∈ after, selectorName other.1 ≠ name) :
    lastRule? (before ++ rule :: after) name = some rule.2 := by
  have dropped : after.filter (fun other => selectorName other.1 == name) = [] :=
    List.filter_eq_nil_iff.mpr fun other among => by simpa using others other among
  unfold lastRule?
  rw [List.filter_append, List.filter_cons_of_pos (by simpa using isLast), dropped,
    List.getLast?_concat]
  rfl

theorem lastRule?_eq_none
    {rules : List (Text × Nat)}
    {name : Text}
    (others : ∀ rule ∈ rules, selectorName rule.1 ≠ name) :
    lastRule? rules name = none := by
  have dropped : rules.filter (fun rule => selectorName rule.1 == name) = [] :=
    List.filter_eq_nil_iff.mpr fun rule among => by simpa using others rule among
  unfold lastRule?
  rw [dropped]
  rfl

end ClassPosition

/-- Every rule begins where one of the nodes does. -/
theorem Stylesheet.exists_node_of_mem_rules
    {sheet : Stylesheet}
    {rule : Text × Nat}
    (present : rule ∈ sheet.rules) :
    ∃ node ∈ sheet.descendants, node.span.start = rule.2 := by
  obtain ⟨node, isNode, made⟩ := List.mem_filterMap.mp present
  refine ⟨node, isNode, ?_⟩
  cases node with
  | rule selector selectorSpan span nodes => exact congrArg Prod.snd (Option.some.inj made)
  | _ => exact absurd made nofun

namespace NamedClass

/-- The named class of a token. -/
def ofToken
    (sheet : Stylesheet)
    (css : Text)
    (map : SourceMap)
    (format : NameFormat)
    (token : Text) : NamedClass :=
  { name := format.apply token
    position :=
      (ClassPosition.lastRule? sheet.rules token).bind (ClassPosition.ofOffset? css map) }

/-- The named classes of a text without faults whose map can be read. -/
theorem ofCompiled_eq
    {css json : Text}
    {map : SourceMap}
    (faultless : (Parser.parse css).faults = [])
    (decoded : SourceMap.ofJson json = .ok map)
    (format : NameFormat) :
    ofCompiled css (some json) format =
      .ok ((Parser.parse css).sheet.exported.map
        (ofToken (Parser.parse css).sheet css map format)) := by
  have readable : readMap (some json) = .ok (some map) := by
    unfold readMap
    simp only [decoded]
  let names := (Parser.parse css).sheet.exported
  let position := fun token =>
    (ClassPosition.lastRule? (Parser.parse css).sheet.rules token).bind
      (ClassPosition.ofOffset? css map)
  have paired : names.zip (names.map position) =
      names.map fun token => (token, position token) := by
    have both : (names.map id).zip (names.map position) =
        names.map fun token => (id token, position token) := List.zip_map'
    rwa [List.map_id] at both
  unfold ofCompiled
  simp only [faultless, readable, bind, Except.bind, ClassPosition.ofClasses]
  apply congrArg Except.ok
  rw [paired, List.map_map]
  rfl

/-- Only a text without faults has named classes: its exported classes in order. -/
theorem names_of_ofCompiled_eq_ok
    {css : Text}
    {map : Option Text}
    {format : NameFormat}
    {classes : List NamedClass}
    (named : ofCompiled css map format = .ok classes) :
    (Parser.parse css).faults = [] ∧
      classes.map name = (Parser.parse css).sheet.exported.map format.apply := by
  unfold ofCompiled at named
  cases faults : (Parser.parse css).faults with
  | cons fault later => simp [faults] at named
  | nil =>
      refine ⟨rfl, ?_⟩
      cases readable : readMap map with
      | error error => simp [faults, readable, bind, Except.bind] at named
      | ok decoded =>
          simp only [faults, readable, bind, Except.bind, Except.ok.injEq] at named
          let positions := ClassPosition.ofClasses (Parser.parse css).sheet css decoded
            (Parser.parse css).sheet.exported
          have enough : (Parser.parse css).sheet.exported.length ≤ positions.length := by
            refine Nat.le_of_eq (Eq.symm ?_)
            cases decoded <;> exact List.length_map _
          rw [← named, List.map_map]
          calc _ = (((Parser.parse css).sheet.exported.zip positions).map Prod.fst).map
                  format.apply := List.map_map.symm
            _ = _ := by rw [List.map_fst_zip enough]

/-- There are named classes where a class is exported. -/
theorem ne_nil_of_ofCompiled_eq_ok
    {css : Text}
    {map : Option Text}
    {format : NameFormat}
    {classes : List NamedClass}
    (named : ofCompiled css map format = .ok classes)
    (nonempty : (Parser.parse css).sheet.exported ≠ []) :
    classes ≠ [] := by
  rintro rfl
  obtain ⟨-, isNames⟩ := names_of_ofCompiled_eq_ok named
  exact nonempty (List.map_eq_nil_iff.mp isNames.symm)

end NamedClass
end StyleTypings
