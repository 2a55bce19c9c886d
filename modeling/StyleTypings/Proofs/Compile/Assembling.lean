import StyleTypings.Proofs.Compile.Fragments
import StyleTypings.Proofs.Compile.Tracing

/-!
# How a bundle is assembled

Nothing is lost or repeated when imported files are put in place of their imports. The
text compiled is a list of fragments, and an import stands between two fragments of
its unit. Between the two is the imported file, with the line feed behind it, if no
fragment before leads to that file, and nothing otherwise.
-/

namespace StyleTypings

/-- Some bytes of a unit end where one of its imports begins. -/
def SourceUnit.EndsAt (unit : SourceUnit) (range : Span) (rule : ImportRule) : Prop :=
  rule ∈ unit.imports ∧ range.stop = rule.span.start

namespace LinkedSheet

section InPlace

variable
  (world : World)
  (options : ImportOptions)
  (entry : Path)

/-- The import behind a fragment leads to a file. -/
def LeadsTo (fragment : Fragment) (path : Path) : Prop :=
  ∃ importer range rule target, fragment = .copied importer range ∧
    importer.EndsAt range rule ∧ target? world options importer rule = some target ∧
      target.alike path = true

/-- A file has been reached: it is the entry, or an import behind one of the fragments
leads to it. -/
def Reached (front : List Fragment) (path : Path) : Prop :=
  entry.alike path = true ∨ ∃ fragment ∈ front, LeadsTo world options fragment path

/-- Fragments are all those of a unit and of what is imported in it: they begin with its
first bytes and end with its last ones, and its gaps are among them. -/
structure Wraps (unit : SourceUnit) (inlined : List Fragment) : Prop where
  begins : ∃ stop rest, inlined = .copied unit ⟨0, stop⟩ :: rest
  ends : ∃ before start, inlined = before ++ [.copied unit ⟨start, unit.text.byteSize⟩]
  gaps : Fragment.rangesIn unit inlined = unit.gaps

/-- What stands in the place of an import behind some fragments. -/
inductive Inlines (front : List Fragment) (copied : Fragment) (target : Path) :
    List Fragment → Prop
  /-- Nothing, if the file has been reached before. -/
  | again (old : Reached world options entry front target) : Inlines front copied target []
  /-- The file and a line feed, unless the text ends with one. -/
  | first
      {unit : SourceUnit}
      {inlined : List Fragment}
      (new : ¬ Reached world options entry front target)
      (isTarget : unit.path = target)
      (wraps : Wraps unit inlined) :
      Inlines front copied target
        (inlined ++ Fragment.feedAfter (Fragment.join (front ++ copied :: inlined)))

/-- Behind other fragments, the bytes up to an import are followed by what the import
comes to and by the bytes behind the import. -/
def InPlace (front fragments : List Fragment) : Prop :=
  ∀ before importer range after, fragments = before ++ .copied importer range :: after →
    ∀ rule, importer.EndsAt range rule →
      ∃ target inlined next rest, target? world options importer rule = some target ∧
        after = inlined ++ .copied importer next :: rest ∧ next.start = rule.span.stop ∧
          Inlines world options entry (front ++ before) (.copied importer range) target inlined

/-- Behind other fragments, a unit stands behind an import that leads to its file, which
nothing before has reached. -/
def Placed (front fragments : List Fragment) (unit : SourceUnit) : Prop :=
  ∃ before importer range rule inlined after,
    fragments = before ++ .copied importer range :: (inlined ++ after) ∧
      importer.EndsAt range rule ∧ target? world options importer rule = some unit.path ∧
        ¬ Reached world options entry (front ++ before) unit.path ∧ Wraps unit inlined

/-- Behind other fragments, a line feed follows all fragments of an imported file, which
stand behind its import, and only if the text before is not empty and does not end with
one. -/
def FeedsInPlace (front fragments : List Fragment) : Prop :=
  ∀ before after, fragments = before ++ .lineFeed :: after →
    Fragment.join (front ++ before) ≠ [] ∧
      (Fragment.join (front ++ before)).getLast? ≠ some '\n' ∧
        ∃ earlier importer range rule unit inlined,
          front ++ before = earlier ++ .copied importer range :: inlined ∧
            importer.EndsAt range rule ∧
              target? world options importer rule = some unit.path ∧ Wraps unit inlined

/-- The files seen are those reached. -/
def Tracks (seen : List Path) (front : List Fragment) : Prop :=
  ∀ path, hasSeen seen path = true ↔ Reached world options entry front path

/-- Behind other fragments, fragments are in place, and so are the units imported. -/
structure Laid (front fragments : List Fragment) (imported : List SourceUnit) : Prop where
  imports : InPlace world options entry front fragments
  feeds : FeedsInPlace world options front fragments
  placed : ∀ unit ∈ imported, Placed world options entry front fragments unit

end InPlace

variable
  {world : World}
  {options : ImportOptions}
  {entry : Path}

theorem InPlace.append
    {front earlier later : List Fragment}
    (first : InPlace world options entry front earlier)
    (second : InPlace world options entry (front ++ earlier) later) :
    InPlace world options entry front (earlier ++ later) := by
  intro before importer range after split rule ends
  rcases cases_of_append_eq_append_cons split with ⟨middle, rfl, rfl⟩ | ⟨middle, rfl, rfl⟩
  · obtain ⟨target, inlined, next, rest, found, rfl, starts, inlines⟩ :=
      first before importer range middle rfl rule ends
    exact ⟨target, inlined, next, rest ++ later, found, by simp, starts, inlines⟩
  · rw [← List.append_assoc]
    exact second middle importer range after rfl rule ends

theorem FeedsInPlace.append
    {front earlier later : List Fragment}
    (first : FeedsInPlace world options front earlier)
    (second : FeedsInPlace world options (front ++ earlier) later) :
    FeedsInPlace world options front (earlier ++ later) := by
  intro before after split
  rcases cases_of_append_eq_append_cons split with ⟨middle, rfl, rfl⟩ | ⟨middle, rfl, rfl⟩
  · exact first before middle rfl
  · rw [← List.append_assoc]
    exact second middle after rfl

theorem Placed.append_right
    {front earlier : List Fragment}
    {unit : SourceUnit}
    (placed : Placed world options entry front earlier unit)
    (later : List Fragment) :
    Placed world options entry front (earlier ++ later) unit := by
  obtain ⟨before, importer, range, rule, inlined, after, rfl, rest⟩ := placed
  exact ⟨before, importer, range, rule, inlined, after ++ later, by simp, rest⟩

theorem Placed.append_left
    {front earlier later : List Fragment}
    {unit : SourceUnit}
    (placed : Placed world options entry (front ++ earlier) later unit) :
    Placed world options entry front (earlier ++ later) unit := by
  obtain ⟨before, importer, range, rule, inlined, after, rfl, ends, found, new, wraps⟩ := placed
  rw [List.append_assoc] at new
  exact ⟨earlier ++ before, importer, range, rule, inlined, after, by simp, ends, found, new,
    wraps⟩

/-- A unit is placed behind the import that reaches it first. -/
theorem placed_of_new
    {importer unit : SourceUnit}
    {range : Span}
    {rule : ImportRule}
    {front inlined : List Fragment}
    (ends : importer.EndsAt range rule)
    (found : target? world options importer rule = some unit.path)
    (new : ¬ Reached world options entry front unit.path)
    (wraps : Wraps unit inlined)
    (after : List Fragment) :
    Placed world options entry front (.copied importer range :: (inlined ++ after)) unit := by
  refine ⟨[], importer, range, rule, inlined, after, rfl, ends, found, ?_, wraps⟩
  rwa [List.append_nil]

/-- One import begins at an offset of a sound unit. -/
theorem eq_of_span_start_eq
    {text : Text}
    {low : Nat}
    {rules : List ImportRule}
    {left right : ImportRule}
    (fit : ImportRule.AllFit text low rules)
    (isLeft : left ∈ rules)
    (isRight : right ∈ rules)
    (same : left.span.start = right.span.start) :
    left = right := by
  induction rules generalizing low with
  | nil => exact absurd isLeft List.not_mem_nil
  | cons first rest inductionHypothesis =>
      have inside := fit.1.start_lt_stop
      have behind {rule : ImportRule} (later : rule ∈ rest) :
          first.span.stop ≤ rule.span.start := (fit.2.fits_of_mem later).low_le
      rcases List.mem_cons.mp isLeft with rfl | leftLater
      · rcases List.mem_cons.mp isRight with rfl | rightLater
        · rfl
        · have bound := behind rightLater
          omega
      · rcases List.mem_cons.mp isRight with rfl | rightLater
        · have bound := behind leftLater
          omega
        · exact inductionHypothesis fit.2 leftLater rightLater

/-- Fragments of a unit from an offset on begin with its bytes there. -/
theorem Links.exists_head
    {unit : SourceUnit}
    {rules : List ImportRule}
    {cursor : Nat}
    {seen : List Path}
    {linked : Linked}
    (links : Links world options unit rules cursor seen (.ok linked))
    (css : Text) :
    ∃ stop rest, linked.fragments css unit = .copied unit ⟨cursor, stop⟩ :: rest := by
  induction links using Links.inductionOk with
  | nil unit cursor seen => exact ⟨_, _, rfl⟩
  | again found old others inductionHypothesis => exact ⟨_, _, rfl⟩
  | fresh found new content parsed within others _ _ => exact ⟨_, _, rfl⟩

/-- Fragments of a unit end with its last bytes. -/
theorem exists_last (linked : Linked) (css : Text) (unit : SourceUnit) :
    ∃ before start,
      linked.fragments css unit = before ++ [.copied unit ⟨start, unit.text.byteSize⟩] :=
  ⟨_, _, rfl⟩

theorem hasSeen_cons_iff (seen : List Path) (first path : Path) :
    hasSeen (first :: seen) path = true ↔
      first.alike path = true ∨ hasSeen seen path = true := by
  rw [hasSeen, List.any_cons, Bool.or_eq_true]
  rfl

/-- What is like a path that has been seen has been seen. -/
theorem hasSeen_of_alike
    {seen : List Path}
    {target path : Path}
    (old : hasSeen seen target = true)
    (alike : target.alike path = true) :
    hasSeen seen path = true := by
  obtain ⟨first, among, same⟩ := List.any_eq_true.mp old
  refine List.any_eq_true.mpr ⟨first, among, ?_⟩
  unfold Path.alike at *
  simp_all

theorem reached_append_iff (front more : List Fragment) (path : Path) :
    Reached world options entry (front ++ more) path ↔
      Reached world options entry front path ∨
        ∃ fragment ∈ more, LeadsTo world options fragment path := by
  unfold Reached
  simp only [List.mem_append, or_and_right, exists_or, or_assoc]

/-- The import behind a fragment leads to one file only. -/
theorem leadsTo_copied_iff
    {unit : SourceUnit}
    {range : Span}
    {rule : ImportRule}
    {target : Path}
    (sound : unit.Sound)
    (ends : unit.EndsAt range rule)
    (found : target? world options unit rule = some target)
    (path : Path) :
    LeadsTo world options (.copied unit range) path ↔ target.alike path = true := by
  constructor
  · rintro ⟨importer, other, behind, elsewhere, same, endsToo, foundToo, alike⟩
    obtain ⟨rfl, rfl⟩ := Fragment.copied.inj same
    obtain rfl := eq_of_span_start_eq sound.imports ends.1 endsToo.1
      (ends.2.symm.trans endsToo.2)
    obtain rfl := Option.some.inj (found.symm.trans foundToo)
    exact alike
  · exact fun alike => ⟨unit, range, rule, target, rfl, ends, found, alike⟩

/-- No import stands behind a fragment. -/
def EndsNowhere (fragment : Fragment) : Prop :=
  ∀ importer range rule, fragment = .copied importer range → ¬ importer.EndsAt range rule

theorem endsNowhere_tail
    {unit : SourceUnit}
    (sound : unit.Sound)
    (start : Nat) :
    EndsNowhere (.copied unit ⟨start, unit.text.byteSize⟩) := by
  rintro importer range rule ⟨⟩ ⟨present, same⟩
  have fits := sound.imports.fits_of_mem present
  have inside := fits.start_lt_stop
  have upper := fits.stop_le
  simp only at same
  omega

theorem endsNowhere_of_mem_feedAfter (css : Text) :
    ∀ fragment ∈ Fragment.feedAfter css, EndsNowhere fragment := by
  unfold Fragment.feedAfter
  split
  · exact nofun
  · intro fragment present
    obtain rfl := List.mem_singleton.mp present
    exact nofun

theorem reached_append_of_endsNowhere
    {more : List Fragment}
    (nowhere : ∀ fragment ∈ more, EndsNowhere fragment)
    (front : List Fragment)
    (path : Path) :
    Reached world options entry (front ++ more) path ↔
      Reached world options entry front path := by
  rw [reached_append_iff]
  refine or_iff_left ?_
  rintro ⟨fragment, present, importer, range, rule, target, same, ends, -⟩
  exact nowhere fragment present importer range rule same ends

theorem inPlace_of_endsNowhere
    {fragments : List Fragment}
    (nowhere : ∀ fragment ∈ fragments, EndsNowhere fragment)
    (front : List Fragment) :
    InPlace world options entry front fragments := by
  intro before importer range after split rule ends
  have present : .copied importer range ∈ fragments := by
    rw [split]
    exact List.mem_append_right _ List.mem_cons_self
  exact absurd ends (nowhere _ present importer range rule rfl)

/-- Bytes of a unit that end where an import begins are in place if what follows is. -/
theorem InPlace.cons
    {unit : SourceUnit}
    {range : Span}
    {rule : ImportRule}
    {target : Path}
    {front inlined rest : List Fragment}
    {next : Span}
    (sound : unit.Sound)
    (ends : unit.EndsAt range rule)
    (found : target? world options unit rule = some target)
    (starts : next.start = rule.span.stop)
    (inlines : Inlines world options entry front (.copied unit range) target inlined)
    (later : InPlace world options entry (front ++ [.copied unit range])
      (inlined ++ .copied unit next :: rest)) :
    InPlace world options entry front
      (.copied unit range :: (inlined ++ .copied unit next :: rest)) := by
  intro before importer bytes after split other endsToo
  cases before with
  | nil =>
      obtain ⟨same, rfl⟩ := List.cons.inj split
      obtain ⟨rfl, rfl⟩ := Fragment.copied.inj same
      obtain rfl := eq_of_span_start_eq sound.imports ends.1 endsToo.1
        (ends.2.symm.trans endsToo.2)
      rw [List.append_nil]
      exact ⟨target, inlined, next, rest, found, rfl, starts, inlines⟩
  | cons first others =>
      obtain ⟨rfl, behind⟩ := List.cons.inj split
      have place := later others importer bytes after behind other endsToo
      rwa [List.append_assoc] at place

/-- Bytes of units have no line feeds of the bundle among them. -/
theorem feedsInPlace_copied (front : List Fragment) (unit : SourceUnit) (range : Span) :
    FeedsInPlace world options front [.copied unit range] := by
  intro before after split
  have present : Fragment.lineFeed ∈ [Fragment.copied unit range] := by
    rw [split]
    exact List.mem_append_right _ List.mem_cons_self
  exact absurd (List.mem_singleton.mp present) nofun

/-- A line feed behind an imported file is in place. -/
theorem FeedsInPlace.feedAfter
    {importer unit : SourceUnit}
    {range : Span}
    {rule : ImportRule}
    {front inlined : List Fragment}
    (first : FeedsInPlace world options (front ++ [.copied importer range]) inlined)
    (ends : importer.EndsAt range rule)
    (found : target? world options importer rule = some unit.path)
    (wraps : Wraps unit inlined) :
    FeedsInPlace world options (front ++ [.copied importer range])
      (inlined ++
        Fragment.feedAfter (Fragment.join (front ++ [.copied importer range] ++ inlined))) := by
  intro before after split
  rcases cases_of_append_eq_append_cons split with ⟨middle, rfl, rfl⟩ | ⟨middle, rfl, feed⟩
  · exact first before middle rfl
  · unfold Fragment.feedAfter at feed
    split at feed
    · exact absurd feed.symm (List.append_ne_nil_of_right_ne_nil _ (List.cons_ne_nil _ _))
    · next unended =>
        rw [not_or] at unended
        have nothing : middle = [] := by
          have length := congrArg List.length feed
          rw [List.length_singleton, List.length_append, List.length_cons] at length
          exact List.length_eq_zero_iff.mp (by omega)
        subst nothing
        rw [List.append_nil]
        exact ⟨fun empty => unended.1 (by rw [empty]; rfl), unended.2, front, importer, range,
          rule, unit, inlined, (List.append_cons _ _ _).symm, ends, found, wraps⟩

/-- No import and no line feed stands behind the last bytes of a unit. -/
theorem laid_tail
    {unit : SourceUnit}
    (sound : unit.Sound)
    (start : Nat)
    (front : List Fragment) :
    Laid world options entry front [.copied unit ⟨start, unit.text.byteSize⟩] [] := by
  refine ⟨inPlace_of_endsNowhere (fun fragment present => ?_) front,
    feedsInPlace_copied front unit _, nofun⟩
  obtain rfl := List.mem_singleton.mp present
  exact endsNowhere_tail sound start

namespace Laid

variable
  {front fragments : List Fragment}
  {imported : List SourceUnit}

theorem append
    {later : List Fragment}
    {more : List SourceUnit}
    (first : Laid world options entry front fragments imported)
    (second : Laid world options entry (front ++ fragments) later more) :
    Laid world options entry front (fragments ++ later) (imported ++ more) := by
  refine ⟨first.imports.append second.imports, first.feeds.append second.feeds,
    fun unit present => ?_⟩
  rcases List.mem_append.mp present with earlier | behind
  · exact (first.placed unit earlier).append_right later
  · exact (second.placed unit behind).append_left

/-- With the line feed behind a file. -/
theorem feedAfter
    {importer unit : SourceUnit}
    {range : Span}
    {rule : ImportRule}
    (laid : Laid world options entry (front ++ [.copied importer range]) fragments imported)
    (ends : importer.EndsAt range rule)
    (found : target? world options importer rule = some unit.path)
    (wraps : Wraps unit fragments) :
    Laid world options entry (front ++ [.copied importer range])
      (fragments ++
        Fragment.feedAfter (Fragment.join (front ++ [.copied importer range] ++ fragments)))
      imported :=
  ⟨laid.imports.append (inPlace_of_endsNowhere (endsNowhere_of_mem_feedAfter _) _),
    laid.feeds.feedAfter ends found wraps,
    fun unit present => (laid.placed unit present).append_right _⟩

/-- With bytes of a unit up to an import in front of what the import comes to. -/
theorem cons
    {unit : SourceUnit}
    {range : Span}
    {rule : ImportRule}
    {target : Path}
    {inlined rest : List Fragment}
    {next : Span}
    (sound : unit.Sound)
    (ends : unit.EndsAt range rule)
    (found : target? world options unit rule = some target)
    (starts : next.start = rule.span.stop)
    (inlines : Inlines world options entry front (.copied unit range) target inlined)
    (later : Laid world options entry (front ++ [.copied unit range])
      (inlined ++ .copied unit next :: rest) imported) :
    Laid world options entry front
      (.copied unit range :: (inlined ++ .copied unit next :: rest)) imported := by
  refine ⟨.cons sound ends found starts inlines later.imports, ?_, fun other present => ?_⟩
  · rw [← List.singleton_append]
    exact (feedsInPlace_copied front unit range).append later.feeds
  · rw [← List.singleton_append]
    exact (later.placed other present).append_left

end Laid

namespace Tracks

variable
  {front : List Fragment}
  {seen : List Path}

theorem append_of_endsNowhere
    {more : List Fragment}
    (tracks : Tracks world options entry seen front)
    (nowhere : ∀ fragment ∈ more, EndsNowhere fragment) :
    Tracks world options entry seen (front ++ more) := fun path =>
  (tracks path).trans (reached_append_of_endsNowhere nowhere front path).symm

variable
  {unit : SourceUnit}
  {range : Span}
  {rule : ImportRule}
  {target : Path}

/-- An import reaches the file that it leads to. -/
theorem fresh
    (tracks : Tracks world options entry seen front)
    (sound : unit.Sound)
    (ends : unit.EndsAt range rule)
    (found : target? world options unit rule = some target) :
    Tracks world options entry (target :: seen) (front ++ [.copied unit range]) := by
  intro path
  rw [hasSeen_cons_iff, reached_append_iff, tracks path, or_comm,
    ← leadsTo_copied_iff sound ends found]
  simp

/-- An import of a file reached before reaches nothing new. -/
theorem again
    (tracks : Tracks world options entry seen front)
    (sound : unit.Sound)
    (ends : unit.EndsAt range rule)
    (found : target? world options unit rule = some target)
    (old : hasSeen seen target = true) :
    Tracks world options entry seen (front ++ [.copied unit range]) := by
  intro path
  rw [← tracks.fresh sound ends found path, hasSeen_cons_iff]
  exact (or_iff_right_of_imp (hasSeen_of_alike old)).symm

end Tracks

/-- The fragments of a unit that is not imported again wrap it. -/
theorem Links.wraps
    {unit : SourceUnit}
    {seen : List Path}
    {linked : Linked}
    (links : Links world options unit unit.imports 0 seen (.ok linked))
    (once : unit ∉ unitsOfPieces linked.pieces)
    (css : Text) :
    Wraps unit (linked.fragments css unit) := by
  obtain ⟨stop, more, head⟩ := links.exists_head css
  exact ⟨⟨stop, more, head⟩, exists_last linked css unit, links.rangesIn_unit once css⟩

/-- The fragments of what imports come to are in place, and the files seen then are those
reached. -/
theorem Links.laid
    {unit : SourceUnit}
    {rules : List ImportRule}
    {cursor : Nat}
    {seen : List Path}
    {linked : Linked}
    (links : Links world options unit rules cursor seen (.ok linked))
    (sound : unit.Sound)
    (isRest : rules <:+ unit.imports)
    (different : (unit :: unitsOfPieces linked.pieces).Nodup)
    {front : List Fragment}
    (tracks : Tracks world options entry seen front) :
    let fragments := linked.fragments (Fragment.join front) unit
    Tracks world options entry linked.seenAfter (front ++ fragments) ∧
      Laid world options entry front fragments (unitsOfPieces linked.pieces) := by
  induction links using Links.inductionOk generalizing front with
  | nil unit cursor seen =>
      refine ⟨tracks.append_of_endsNowhere fun fragment present => ?_, laid_tail sound cursor front⟩
      obtain rfl := List.mem_singleton.mp present
      exact endsNowhere_tail sound cursor
  | @again unit rule rest cursor seen target linked found old others inductionHypothesis =>
      let range : Span := ⟨cursor, rule.span.start⟩
      have ends : unit.EndsAt range rule := ⟨isRest.subset List.mem_cons_self, rfl⟩
      obtain ⟨tracksAfter, laid⟩ := inductionHypothesis sound
        ((List.suffix_cons rule rest).trans isRest) different (tracks.again sound ends found old)
      have css : Fragment.join (front ++ [.copied unit range]) =
          Fragment.join front ++ range.slice unit.text := by
        simp [Fragment.text]
      rw [css] at tracksAfter laid
      obtain ⟨stop, more, head⟩ := others.exists_head (Fragment.join front ++ range.slice unit.text)
      rw [Linked.fragments_again, unitsOfPieces_again]
      refine ⟨?_, ?_⟩
      · rw [List.append_cons]
        exact tracksAfter
      · rw [head] at laid ⊢
        exact .cons sound ends found rfl (.again ((tracks target).mp old)) laid
  | @fresh unit imported rule rest cursor seen target source inner linked found new content
      parsed within others withinHypothesis othersHypothesis =>
      let range : Span := ⟨cursor, rule.span.start⟩
      let front' := front ++ [.copied unit range]
      let inlined := inner.fragments (Fragment.join front') imported
      let ended := inlined ++ Fragment.feedAfter (Fragment.join (front' ++ inlined))
      -- The files reached are followed through the import, the imported file and its feed.
      have ends : unit.EndsAt range rule := ⟨isRest.subset List.mem_cons_self, rfl⟩
      have isTarget : imported.path = target := SourceUnit.path_of_ofFile parsed
      rw [unitsOfPieces_fresh] at different ⊢
      have apart := (List.nodup_cons.mp different).2
      have differentWithin : (imported :: unitsOfPieces inner.pieces).Nodup :=
        List.Sublist.nodup ((List.sublist_append_left _ _).cons_cons imported) apart
      have differentBehind : (unit :: unitsOfPieces linked.pieces).Nodup :=
        List.Sublist.nodup
          (((List.sublist_append_right _ _).trans (List.sublist_cons_self _ _)).cons_cons unit)
          different
      obtain ⟨tracksWithin, laidWithin⟩ := withinHypothesis (SourceUnit.sound_of_ofFile parsed)
        (List.suffix_refl _) differentWithin (tracks.fresh sound ends found)
      have wraps : Wraps imported inlined :=
        within.wraps (List.nodup_cons.mp differentWithin).1 (Fragment.join front')
      have tracksEnded : Tracks world options entry inner.seenAfter (front' ++ ended) := by
        rw [← List.append_assoc]
        exact tracksWithin.append_of_endsNowhere (endsNowhere_of_mem_feedAfter _)
      obtain ⟨tracksAfter, laidBehind⟩ := othersHypothesis sound
        ((List.suffix_cons rule rest).trans isRest) differentBehind tracksEnded
      have laid := (laidWithin.feedAfter ends (isTarget ▸ found) wraps).append laidBehind
      have fragments : (linked.withPiece (range, some (inner.toSheet imported))).fragments
          (Fragment.join front) unit =
            .copied unit range ::
              (ended ++ linked.fragments (Fragment.join (front' ++ ended)) unit) := by
        rw [Linked.fragments_fresh]
        simp [front', ended, inlined, Fragment.text]
      have isNew : ¬ Reached world options entry front target := fun old => by
        rw [(tracks target).mpr old] at new
        exact absurd new nofun
      have inlines : Inlines world options entry front (.copied unit range) target ended := by
        have feed : ended = inlined ++
            Fragment.feedAfter (Fragment.join (front ++ .copied unit range :: inlined)) := by
          rw [List.append_cons]
        rw [feed]
        exact .first isNew isTarget wraps
      obtain ⟨stop, more, head⟩ := others.exists_head (Fragment.join (front' ++ ended))
      rw [fragments]
      refine ⟨?_, ?_⟩
      · rw [List.append_cons, ← List.append_assoc]
        exact tracksAfter
      · rw [head] at laid ⊢
        have all := Laid.cons sound ends found rfl inlines laid
        refine ⟨all.imports, all.feeds, List.forall_mem_cons.mpr ⟨?_, all.placed⟩⟩
        rw [List.append_assoc inlined]
        exact placed_of_new ends (isTarget ▸ found) (isTarget ▸ isNew) wraps _

end LinkedSheet

/-! ## Compilations -/

namespace Native

open LinkedSheet

/-- How the fragments of a unit and of those imported, at whatever depth, are assembled. -/
structure Assembled
    (world : World)
    (options : CompileOptions)
    (source : Text)
    (entry : SourceUnit)
    (imported : List SourceUnit)
    (fragments : List Fragment) : Prop where
  /-- The first unit is that of the text compiled. -/
  parsed : SourceUnit.ofFile options.filename source = .ok entry
  /-- No two units are reached by paths of the same components. -/
  different : ((entry :: imported).map fun unit => unit.path.components).Nodup
  /-- Everything but the line feeds is copied from a unit, and something from each. -/
  copied : ∀ unit, (∃ range, .copied unit range ∈ fragments) ↔ unit ∈ entry :: imported
  /-- The fragments of a unit are in order and without overlap all bytes of its text that
  lie outside of its local imports. -/
  gaps : ∀ unit ∈ entry :: imported, ∃ text, unit.ComesFrom world options source text ∧
    unit.text = SourceUnit.cleanText unit.path text ∧
      unit.imports = (Parser.parse unit.text).sheet.nodes.filterMap ImportRule.ofNode? ∧
        unit.Leaves 0 unit.imports (Fragment.rangesIn unit fragments)
  /-- Each local import of a unit stands behind a fragment of it. -/
  follows : ∀ unit ∈ entry :: imported, ∀ rule ∈ unit.imports,
    ∃ range, .copied unit range ∈ fragments ∧ unit.EndsAt range rule
  /-- Behind each local import stands what it comes to. -/
  imports : InPlace world options.imports options.filename [] fragments
  /-- The text begins and ends with the first and the last bytes of the first unit. -/
  whole : Wraps entry fragments
  /-- Each imported unit stands behind the import that first reached it. -/
  placed : ∀ unit ∈ imported, Placed world options.imports options.filename [] fragments unit
  /-- Each line feed stands right behind an imported file, where the text is not empty and
  does not end with one. -/
  feeds : FeedsInPlace world options.imports [] fragments

/-- The units of a linked file are assembled. -/
theorem assembled_of_links
    {world : World}
    {options : CompileOptions}
    {source : Text}
    {unit : SourceUnit}
    {linked : Linked}
    (parsed : SourceUnit.ofFile options.filename source = .ok unit)
    (imported : Links world options.imports unit unit.imports 0 [options.filename] (.ok linked)) :
    Assembled world options source unit (unitsOfPieces linked.pieces)
      (linked.fragments [] unit) := by
  have links : LinksFile world options.imports options.filename source
      (.ok (linked.toSheet unit)) := .parsed parsed imported
  have different : (unit :: unitsOfPieces linked.pieces).Nodup :=
    List.Nodup.of_map _ links.nodup_components
  have tracks : Tracks world options.imports options.filename [options.filename] [] := by
    intro path
    simp [Reached, hasSeen]
  obtain ⟨-, laid⟩ := imported.laid (SourceUnit.sound_of_ofFile parsed) (List.suffix_refl _)
    different tracks
  have gaps {other : SourceUnit} (among : other ∈ unit :: unitsOfPieces linked.pieces) :
      Fragment.rangesIn other (linked.fragments [] unit) = other.gaps :=
    imported.rangesIn_eq_gaps different among []
  refine
    { parsed
      different := links.nodup_components
      copied := fun other => ⟨?_, fun among => ?_⟩
      gaps := fun other among => ?_
      follows := fun other among rule isImport => ?_
      imports := laid.imports
      whole := imported.wraps (List.nodup_cons.mp different).1 []
      placed := laid.placed
      feeds := laid.feeds }
  · rintro ⟨range, present⟩
    exact unit_mem_of_copied [] (linked.toSheet unit) present
  · obtain ⟨range, present⟩ := List.exists_mem_of_ne_nil _ other.gaps_ne_nil
    exact ⟨range, Fragment.mem_rangesIn_iff.mp (gaps among ▸ present)⟩
  · obtain ⟨text, parsedToo, comes⟩ := links.exists_text other among
    have sound := SourceUnit.sound_of_ofFile parsedToo
    refine ⟨text, ⟨parsedToo, comes⟩, SourceUnit.text_of_ofFile parsedToo, ?_, ?_⟩
    · rw [SourceUnit.text_of_ofFile parsedToo]
      exact congrArg SourceUnit.imports (SourceUnit.ofFile_eq parsedToo).2
    · rw [gaps among]
      exact SourceUnit.leaves_gapsFrom (Text.Boundary.zero _) sound.imports
  · obtain ⟨range, present, stops⟩ := SourceUnit.exists_gap_of_mem isImport
    exact ⟨range, Fragment.mem_rangesIn_iff.mp (gaps among ▸ present), isImport, stops⟩

/-- What a file without imports comes to is all of its text. -/
theorem join_fragments_of_imports_eq_nil
    {world : World}
    {options : ImportOptions}
    {unit : SourceUnit}
    {seen : List Path}
    {linked : Linked}
    (links : Links world options unit unit.imports 0 seen (.ok linked))
    (none : unit.imports = []) :
    Fragment.join (linked.fragments [] unit) = unit.text := by
  rw [none] at links
  cases links with
  | nil =>
      exact (List.append_nil _).trans (Span.slice_back [] unit.text)

/-- The text compiled is assembled from the units of the linked file, and without local imports
it is the text of the file without its line comments. -/
theorem compile_assembles
    {world after : World}
    {options : CompileOptions}
    {source : Text}
    {output : CompileOutput}
    (compiled : (compile options source).run world = (.ok output, after)) :
    ∃ sheet entry imported fragments,
      LinksFile world options.imports options.filename source (.ok sheet) ∧
        sheet.units = entry :: imported ∧
        Assembled world options source entry imported fragments ∧
        output.css = Fragment.join fragments ∧
        ((∀ node ∈ (Parser.parse
              (SourceUnit.cleanText options.filename source)).sheet.nodes,
            ImportRule.ofNode? node = none) →
          output.css = SourceUnit.cleanText options.filename source) := by
  obtain ⟨sheet, links, rfl, -⟩ := exists_sheet_of_compile compiled
  obtain ⟨unit, linked, parsed, imported, rfl⟩ := links.exists_linked
  have css : (outputOf options (linked.toSheet unit)).css =
      Fragment.join (linked.fragments [] unit) :=
    css_addSheet _ Bundle.empty _
  refine ⟨_, unit, unitsOfPieces linked.pieces, linked.fragments [] unit, links, rfl,
    assembled_of_links parsed imported, css, fun plain => ?_⟩
  have none : unit.imports = [] := by
    rw [(SourceUnit.ofFile_eq parsed).2]
    exact List.filterMap_eq_nil_iff.mpr plain
  rw [css, join_fragments_of_imports_eq_nil imported none]
  exact SourceUnit.text_of_ofFile parsed

theorem compile_assembles_respelled :
    (compile respelledOptions respelled).run respelledWorld =
        (.ok (outputOf respelledOptions respelledSheet), respelledWorld) ∧
      ∃ fragments,
        Assembled respelledWorld respelledOptions respelled respelledUnit
          [importedUnit "a.css", importedUnit "./a.css"] fragments ∧
          ".a {}\n\n.a {}\n".toList = Fragment.join fragments := by
  obtain ⟨outcome, links, ran⟩ := run_compile respelledWorld respelledOptions respelled
  obtain rfl := links.unique links_respelled
  obtain ⟨sheet, entry, imported, fragments, linked, units, assembled, css, -⟩ :=
    compile_assembles ran
  obtain rfl : respelledSheet = sheet := Except.ok.inj (links.unique linked)
  obtain ⟨rfl, rfl⟩ := List.cons.inj units
  have text : (outputOf respelledOptions respelledSheet).css = ".a {}\n\n.a {}\n".toList := by
    decide +kernel
  exact ⟨ran, fragments, assembled, text ▸ css⟩

end Native
end StyleTypings
