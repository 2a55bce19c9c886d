import StyleTypings.Proofs.Compile.Copying

/-!
# The fragments of a bundle

The text of a bundle is put together from fragments: bytes of its units, and line feeds
behind imported files. The bytes copied from a unit are its gaps, which are in order
all bytes outside of its imports.
-/

namespace StyleTypings

/-- A part of the text of a bundle. -/
inductive Fragment
  /-- Bytes of a unit. -/
  | copied (unit : SourceUnit) (range : Span)
  /-- The line feed behind an imported file. -/
  | lineFeed

namespace Fragment

/-- The text of a fragment. -/
def text : Fragment → Text
  | .copied unit range => range.slice unit.text
  | .lineFeed => ['\n']

/-- The text that fragments put together. -/
def join (fragments : List Fragment) : Text :=
  fragments.flatMap text

@[simp] theorem join_nil : join [] = [] := rfl

@[simp] theorem join_cons (fragment : Fragment) (rest : List Fragment) :
    join (fragment :: rest) = fragment.text ++ join rest := rfl

@[simp] theorem join_append (front back : List Fragment) :
    join (front ++ back) = join front ++ join back :=
  List.flatMap_append

/-- The line feed behind a file with which a text ends: there is none if the text is
empty or ends with one. -/
def feedAfter (css : Text) : List Fragment :=
  if css.isEmpty ∨ css.getLast? = some '\n' then [] else [.lineFeed]

/-- The bytes that a fragment takes from a unit. -/
def rangeIn? (unit : SourceUnit) : Fragment → Option Span
  | .copied other range => if other = unit then some range else none
  | .lineFeed => none

end Fragment

namespace LinkedSheet

mutual

/-- The fragments of a sheet that is added to a text. -/
def fragments (css : Text) : LinkedSheet → List Fragment
  | .sheet unit pieces tail => fragmentsOfPieces css unit pieces ++ [.copied unit tail]

/-- The fragments of pieces of a unit, with the sheets imported after them. -/
def fragmentsOfPieces
    (css : Text)
    (unit : SourceUnit) : List (Span × Option LinkedSheet) → List Fragment
  | [] => []
  | (range, none) :: rest =>
      .copied unit range :: fragmentsOfPieces (css ++ range.slice unit.text) unit rest
  | (range, some inner) :: rest =>
      let copied := css ++ range.slice unit.text
      let inlined := inner.fragments copied
      let ended := inlined ++ Fragment.feedAfter (copied ++ Fragment.join inlined)
      .copied unit range ::
        (ended ++ fragmentsOfPieces (copied ++ Fragment.join ended) unit rest)

end

/-- Ending the last line of a bundle adds the line feed, if any. -/
theorem css_endLine (bundle : Bundle) :
    bundle.endLine.css = bundle.css ++ Fragment.join (Fragment.feedAfter bundle.css) := by
  unfold Bundle.endLine Fragment.feedAfter
  split
  · exact (List.append_nil _).symm
  · rfl

theorem css_copy (bundle : Bundle) (root : Path) (unit : SourceUnit) (range : Span) :
    (bundle.copy root unit range).css = bundle.css ++ range.slice unit.text := by
  rw [Bundle.copy_eq]

mutual

/-- Adding a sheet adds the text of its fragments. -/
theorem css_addSheet
    (root : Path)
    (bundle : Bundle) :
    (sheet : LinkedSheet) →
      (Bundle.addSheet root bundle sheet).css =
        bundle.css ++ Fragment.join (sheet.fragments bundle.css)
  | .sheet unit pieces tail => by
      rw [Bundle.addSheet, css_copy, css_addPieces root unit bundle pieces, fragments,
        Fragment.join_append, List.append_assoc]
      simp [Fragment.text]

theorem css_addPieces
    (root : Path)
    (unit : SourceUnit)
    (bundle : Bundle) :
    (pieces : List (Span × Option LinkedSheet)) →
      (Bundle.addPieces root unit bundle pieces).css =
        bundle.css ++ Fragment.join (fragmentsOfPieces bundle.css unit pieces)
  | [] => (List.append_nil _).symm
  | (range, none) :: rest => by
      rw [Bundle.addPieces, css_addPieces root unit _ rest, css_copy, fragmentsOfPieces,
        Fragment.join_cons, List.append_assoc]
      rfl
  | (range, some inner) :: rest => by
      rw [Bundle.addPieces, css_addPieces root unit _ rest, css_endLine,
        css_addSheet root _ inner, css_copy, fragmentsOfPieces]
      simp [Fragment.text]

end

end LinkedSheet

/-! ## Gaps -/

/-- Each of the imports that fit fits. -/
theorem ImportRule.AllFit.fits_of_mem
    {text : Text}
    {low : Nat}
    {rules : List ImportRule}
    {rule : ImportRule}
    (fit : AllFit text low rules)
    (present : rule ∈ rules) :
    rule.span.Fits text low text.byteSize := by
  induction rules generalizing low with
  | nil => exact absurd present List.not_mem_nil
  | cons first rest inductionHypothesis =>
      rcases List.mem_cons.mp present with rfl | later
      · exact fit.1
      · have lower := fit.1.low_le
        have inside := fit.1.start_lt_stop
        exact (inductionHypothesis fit.2 later).mono (by omega) (Nat.le_refl _)

namespace SourceUnit

/-- What imports leave of a unit from an offset on. -/
def gapsFrom (unit : SourceUnit) (cursor : Nat) : List ImportRule → List Span
  | [] => [⟨cursor, unit.text.byteSize⟩]
  | rule :: rest => ⟨cursor, rule.span.start⟩ :: unit.gapsFrom rule.span.stop rest

/-- What the imports of a unit leave of it. -/
def gaps (unit : SourceUnit) : List Span :=
  unit.gapsFrom 0 unit.imports

theorem gaps_ne_nil (unit : SourceUnit) : unit.gaps ≠ [] := by
  unfold gaps
  cases unit.imports <;> exact List.cons_ne_nil _ _

/-- Each import of a unit stands behind one of its gaps. -/
theorem exists_gap_of_mem
    {unit : SourceUnit}
    {rule : ImportRule}
    (present : rule ∈ unit.imports) :
    ∃ range ∈ unit.gaps, range.stop = rule.span.start := by
  have before {rules : List ImportRule} (among : rule ∈ rules) (cursor : Nat) :
      ∃ range ∈ unit.gapsFrom cursor rules, range.stop = rule.span.start := by
    induction rules generalizing cursor with
    | nil => exact absurd among List.not_mem_nil
    | cons first rest inductionHypothesis =>
        rcases List.mem_cons.mp among with rfl | later
        · exact ⟨_, List.mem_cons_self, rfl⟩
        · obtain ⟨range, behind, stops⟩ := inductionHypothesis later first.span.stop
          exact ⟨range, List.mem_cons_of_mem _ behind, stops⟩
  exact before present 0

/-- Ranges are in order and without overlap the bytes of a unit from an offset on that
none of some imports covers, and are cut on character boundaries. -/
structure Leaves
    (unit : SourceUnit)
    (cursor : Nat)
    (rules : List ImportRule)
    (ranges : List Span) : Prop where
  cut : ∀ range ∈ ranges,
    unit.text.Boundary range.start ∧ unit.text.Boundary range.stop ∧
      cursor ≤ range.start ∧ range.start ≤ range.stop
  ordered : ranges.Pairwise fun earlier later => earlier.stop ≤ later.start
  covers : ∀ offset,
    (∃ range ∈ ranges, range.start ≤ offset ∧ offset < range.stop) ↔
      cursor ≤ offset ∧ offset < unit.text.byteSize ∧
        ∀ rule ∈ rules, offset < rule.span.start ∨ rule.span.stop ≤ offset

theorem leaves_gapsFrom
    {unit : SourceUnit}
    {cursor : Nat}
    {rules : List ImportRule}
    (boundary : unit.text.Boundary cursor)
    (fit : ImportRule.AllFit unit.text cursor rules) :
    unit.Leaves cursor rules (unit.gapsFrom cursor rules) := by
  induction rules generalizing cursor with
  | nil =>
      refine ⟨?_, List.pairwise_singleton _ _, fun offset => ?_⟩
      · rintro range (_ | ⟨_, ⟨⟩⟩)
        exact ⟨boundary, Text.Boundary.size _, Nat.le_refl _, boundary.le_byteSize⟩
      · simp [gapsFrom]
  | cons rule rest inductionHypothesis =>
      have span := fit.1
      have lower := span.low_le
      have inside := span.start_lt_stop
      have upper := span.stop_le
      have later := inductionHypothesis span.ends fit.2
      refine ⟨?_, ?_, fun offset => ?_⟩
      · intro range present
        rcases List.mem_cons.mp present with rfl | behind
        · exact ⟨boundary, span.solid.boundary, Nat.le_refl _, lower⟩
        · obtain ⟨starts, stops, bound, ordered⟩ := later.cut range behind
          exact ⟨starts, stops, by omega, ordered⟩
      · refine List.pairwise_cons.mpr ⟨fun range behind => ?_, later.ordered⟩
        have bound := (later.cut range behind).2.2.1
        change rule.span.start ≤ range.start
        omega
      · simp only [gapsFrom, List.mem_cons, exists_eq_or_imp, forall_eq_or_imp,
          later.covers offset]
        constructor
        · rintro (⟨low, high⟩ | ⟨low, high, kept⟩)
          · refine ⟨low, by omega, .inl high, fun other present => .inl ?_⟩
            have behind := (fit.2.fits_of_mem present).low_le
            omega
          · exact ⟨by omega, high, .inr low, kept⟩
        · rintro ⟨low, high, before | behind, kept⟩
          · exact .inl ⟨low, before⟩
          · exact .inr ⟨behind, high, kept⟩

end SourceUnit

namespace Fragment

/-- The bytes that fragments take from a unit, in order. -/
def rangesIn (unit : SourceUnit) (fragments : List Fragment) : List Span :=
  fragments.filterMap (rangeIn? unit)

@[simp] theorem rangesIn_nil (unit : SourceUnit) : rangesIn unit [] = [] := rfl

@[simp] theorem rangesIn_append (unit : SourceUnit) (front back : List Fragment) :
    rangesIn unit (front ++ back) = rangesIn unit front ++ rangesIn unit back :=
  List.filterMap_append

theorem rangesIn_own (unit : SourceUnit) (range : Span) (rest : List Fragment) :
    rangesIn unit (.copied unit range :: rest) = range :: rangesIn unit rest :=
  List.filterMap_cons_some (if_pos rfl)

theorem rangesIn_other
    {unit other : SourceUnit}
    (different : other ≠ unit)
    (range : Span)
    (rest : List Fragment) :
    rangesIn unit (.copied other range :: rest) = rangesIn unit rest :=
  List.filterMap_cons_none (if_neg different)

theorem mem_rangesIn_iff {unit : SourceUnit} {range : Span} {fragments : List Fragment} :
    range ∈ rangesIn unit fragments ↔ .copied unit range ∈ fragments := by
  refine List.mem_filterMap.trans ⟨?_, fun present => ⟨_, present, if_pos rfl⟩⟩
  rintro ⟨fragment, present, taken⟩
  cases fragment with
  | lineFeed => exact absurd taken nofun
  | copied other bytes =>
      obtain ⟨rfl, same⟩ := Option.ite_none_right_eq_some.mp taken
      obtain rfl := Option.some.inj same
      exact present

/-- A line feed copies nothing. -/
theorem copied_not_mem_feedAfter (unit : SourceUnit) (range : Span) (css : Text) :
    .copied unit range ∉ feedAfter css := by
  unfold feedAfter
  split
  · exact List.not_mem_nil
  · exact fun present => absurd (List.mem_singleton.mp present) nofun

@[simp] theorem rangesIn_feedAfter (unit : SourceUnit) (css : Text) :
    rangesIn unit (feedAfter css) = [] := by
  unfold feedAfter
  split <;> rfl

end Fragment

namespace LinkedSheet

/-- The fragments of what imports come to, up to the end of their unit. -/
def Linked.fragments (css : Text) (unit : SourceUnit) (linked : Linked) : List Fragment :=
  (linked.toSheet unit).fragments css

theorem Linked.fragments_again
    (css : Text)
    (unit : SourceUnit)
    (range : Span)
    (linked : Linked) :
    (linked.withPiece (range, none)).fragments css unit =
      .copied unit range :: linked.fragments (css ++ range.slice unit.text) unit := rfl

theorem Linked.fragments_fresh
    (css : Text)
    (unit imported : SourceUnit)
    (range : Span)
    (inner linked : Linked) :
    (linked.withPiece (range, some (inner.toSheet imported))).fragments css unit =
      let copied := css ++ range.slice unit.text
      let inlined := inner.fragments copied imported
      let ended := inlined ++ Fragment.feedAfter (copied ++ Fragment.join inlined)
      .copied unit range ::
        (ended ++ linked.fragments (copied ++ Fragment.join ended) unit) := by
  unfold Linked.fragments
  rw [Linked.toSheet, LinkedSheet.fragments, Linked.withPiece, fragmentsOfPieces]
  simp only [List.cons_append, List.append_assoc]
  rfl

mutual

/-- Fragments take bytes of the units of their sheet only. -/
theorem unit_mem_of_copied
    {other : SourceUnit}
    {range : Span}
    (css : Text) :
    (sheet : LinkedSheet) → .copied other range ∈ sheet.fragments css → other ∈ sheet.units
  | .sheet unit pieces tail => by
      intro copied
      rw [fragments, List.mem_append] at copied
      rcases copied with within | last
      · exact unit_mem_of_copied_pieces css unit pieces within
      · obtain ⟨rfl, -⟩ := Fragment.copied.inj (List.mem_singleton.mp last)
        exact List.mem_cons_self

theorem unit_mem_of_copied_pieces
    {other : SourceUnit}
    {range : Span}
    (css : Text)
    (unit : SourceUnit) :
    (pieces : List (Span × Option LinkedSheet)) →
      .copied other range ∈ fragmentsOfPieces css unit pieces →
        other ∈ unit :: unitsOfPieces pieces
  | [] => fun copied => absurd copied List.not_mem_nil
  | (own, none) :: rest => by
      intro copied
      rw [fragmentsOfPieces] at copied
      rcases List.mem_cons.mp copied with first | later
      · obtain ⟨rfl, -⟩ := Fragment.copied.inj first
        exact List.mem_cons_self
      · exact unit_mem_of_copied_pieces _ unit rest later
  | (own, some inner) :: rest => by
      intro copied
      simp only [fragmentsOfPieces, List.mem_cons, List.mem_append] at copied
      rcases copied with first | (within | feed) | later
      · obtain ⟨rfl, -⟩ := Fragment.copied.inj first
        exact List.mem_cons_self
      · exact List.mem_cons_of_mem _ (List.mem_append_left _ (unit_mem_of_copied _ inner within))
      · exact absurd feed (Fragment.copied_not_mem_feedAfter _ _ _)
      · rcases List.mem_cons.mp (unit_mem_of_copied_pieces _ unit rest later) with rfl | behind
        · exact List.mem_cons_self
        · exact List.mem_cons_of_mem _ (List.mem_append_right _ behind)

end

/-- Nothing is taken from a unit that is not entered. -/
theorem Linked.rangesIn_eq_nil
    {linked : Linked}
    {unit other : SourceUnit}
    (absent : other ∉ unit :: unitsOfPieces linked.pieces)
    (css : Text) :
    Fragment.rangesIn other (linked.fragments css unit) = [] := by
  refine List.filterMap_eq_nil_iff.mpr fun fragment present => ?_
  cases fragment with
  | lineFeed => rfl
  | copied owner range =>
      refine if_neg ?_
      rintro rfl
      exact absent (unit_mem_of_copied css (linked.toSheet unit) present)

section Gaps

variable
  {world : World}
  {options : ImportOptions}
  {unit : SourceUnit}
  {rules : List ImportRule}
  {cursor : Nat}
  {seen : List Path}
  {linked : Linked}

/-- The bytes taken from a unit that is not imported again are its gaps. -/
theorem Links.rangesIn_unit
    (links : Links world options unit rules cursor seen (.ok linked))
    (once : unit ∉ unitsOfPieces linked.pieces)
    (css : Text) :
    Fragment.rangesIn unit (linked.fragments css unit) = unit.gapsFrom cursor rules := by
  induction links using Links.inductionOk generalizing css with
  | nil unit cursor seen => exact Fragment.rangesIn_own unit _ []
  | again _ _ _ inductionHypothesis =>
      rw [Linked.fragments_again, Fragment.rangesIn_own, inductionHypothesis once]
      rfl
  | fresh _ _ _ _ _ _ _ othersHypothesis =>
      rw [unitsOfPieces_fresh, ← List.cons_append, List.mem_append, not_or] at once
      rw [Linked.fragments_fresh, Fragment.rangesIn_own]
      simp only [Fragment.rangesIn_append, Fragment.rangesIn_feedAfter,
        Linked.rangesIn_eq_nil once.1, othersHypothesis once.2]
      rfl

/-- Among different units, the bytes taken from each that is imported are its gaps. -/
theorem Links.rangesIn_imported
    (links : Links world options unit rules cursor seen (.ok linked))
    (different : (unit :: unitsOfPieces linked.pieces).Nodup)
    {other : SourceUnit}
    (entered : other ∈ unitsOfPieces linked.pieces)
    (css : Text) :
    Fragment.rangesIn other (linked.fragments css unit) = other.gaps := by
  induction links using Links.inductionOk generalizing css with
  | nil unit cursor seen => exact absurd entered List.not_mem_nil
  | @again unit _ _ _ _ _ _ _ _ _ inductionHypothesis =>
      have noUnit : unit ≠ other := by
        rintro rfl
        exact (List.nodup_cons.mp different).1 entered
      rw [Linked.fragments_again, Fragment.rangesIn_other noUnit,
        inductionHypothesis different entered]
  | @fresh unit imported rule rest cursor seen target source inner linked _ _ _ _ within _
      withinHypothesis othersHypothesis =>
      rw [unitsOfPieces_fresh, ← List.cons_append] at entered different
      obtain ⟨notEntered, different⟩ := List.nodup_cons.mp different
      obtain ⟨differentWithin, differentBehind, apart⟩ := List.nodup_append.mp different
      have noUnit : unit ≠ other := by
        rintro rfl
        exact notEntered entered
      rw [Linked.fragments_fresh, Fragment.rangesIn_other noUnit]
      simp only [Fragment.rangesIn_append, Fragment.rangesIn_feedAfter]
      rcases List.mem_append.mp entered with inside | behind
      · have notBehind : other ∉ unit :: unitsOfPieces linked.pieces := by
          intro present
          rcases List.mem_cons.mp present with rfl | later
          · exact noUnit rfl
          · exact apart other inside other later rfl
        rw [Linked.rangesIn_eq_nil notBehind, List.append_nil, List.append_nil]
        rcases List.mem_cons.mp inside with rfl | deeper
        · exact within.rangesIn_unit (List.nodup_cons.mp differentWithin).1 _
        · exact withinHypothesis differentWithin deeper _
      · have notInside : other ∉ imported :: unitsOfPieces inner.pieces :=
          fun inside => apart other inside other behind rfl
        have differentLater : (unit :: unitsOfPieces linked.pieces).Nodup :=
          List.nodup_cons.mpr ⟨fun later => notEntered (List.mem_append_right _ later),
            differentBehind⟩
        rw [Linked.rangesIn_eq_nil notInside, othersHypothesis differentLater behind]
        rfl

/-- Among different units, the bytes taken from each are its gaps. -/
theorem Links.rangesIn_eq_gaps
    (links : Links world options unit unit.imports 0 seen (.ok linked))
    (different : (unit :: unitsOfPieces linked.pieces).Nodup)
    {other : SourceUnit}
    (among : other ∈ unit :: unitsOfPieces linked.pieces)
    (css : Text) :
    Fragment.rangesIn other (linked.fragments css unit) = other.gaps := by
  rcases List.mem_cons.mp among with rfl | deeper
  · exact links.rangesIn_unit (List.nodup_cons.mp different).1 css
  · exact links.rangesIn_imported different deeper css

end Gaps

end LinkedSheet
end StyleTypings
