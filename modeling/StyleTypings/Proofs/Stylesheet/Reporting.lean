import StyleTypings.Proofs.Stylesheet.Dividing
import StyleTypings.Proofs.Stylesheet.Recovery

/-!
# The order in which faults are reported

A fault is reported as soon as it is certain: a token that does not end when it is taken,
an unknown word when the prelude ends that it begins, and an unclosed block at the end of
the text. The faults of a text are therefore listed in the order in which they end, and of
those that end together the one that begins last comes first. They are in the order in
which they begin just if no fault begins within another one.
-/

namespace StyleTypings
namespace Fault

/-- Where the text ends that a fault concerns: an unclosed block goes on to the end of the
whole text. -/
def finish (size : Nat) (fault : Fault) : Nat :=
  match fault.kind with
  | .unclosedBlock => size
  | _ => fault.span.stop

/-- A fault ends before another one begins, or it lies in the other one. -/
def Precedes (size : Nat) (earlier later : Fault) : Prop :=
  earlier.finish size ≤ later.span.start ∨
    later.span.start < earlier.span.start ∧ earlier.finish size ≤ later.finish size

/-- A fault begins within another one. -/
def BeginsIn (size : Nat) (inner outer : Fault) : Prop :=
  outer.span.start < inner.span.start ∧ inner.span.start < outer.finish size

theorem finish_eq_stop
    {fault : Fault}
    (size : Nat)
    (closed : fault.kind ≠ .unclosedBlock) :
    fault.finish size = fault.span.stop := by
  unfold finish
  split
  · next kind => exact absurd kind closed
  · rfl

/-- Of two faults in order the first begins first, unless it begins within the other. -/
theorem Precedes.start_le_iff
    {size : Nat}
    {earlier later : Fault}
    (precedes : earlier.Precedes size later)
    (begins : earlier.span.start < earlier.finish size) :
    earlier.span.start ≤ later.span.start ↔ ¬ earlier.BeginsIn size later := by
  unfold Precedes at precedes
  unfold BeginsIn
  omega

/-- Of two faults in order the second does not begin within the first. -/
theorem Precedes.not_beginsIn
    {size : Nat}
    {earlier later : Fault}
    (precedes : earlier.Precedes size later) :
    ¬ later.BeginsIn size earlier := by
  unfold Precedes at precedes
  unfold BeginsIn
  omega

/-- Faults in order begin in order just if none begins within another one. -/
theorem ascends_iff
    {size : Nat}
    {faults : List Fault}
    (listed : faults.Pairwise (Precedes size))
    (begin : ∀ fault ∈ faults, fault.span.start < fault.finish size) :
    (faults.map (·.span.start)).Pairwise (· ≤ ·) ↔
      ∀ inner ∈ faults, ∀ outer ∈ faults, ¬ inner.BeginsIn size outer := by
  rw [List.pairwise_map]
  constructor
  · intro ascends
    have forwards : faults.Pairwise fun first second => ¬ first.BeginsIn size second :=
      (listed.and ascends).imp_of_mem fun present _ both =>
        (both.1.start_le_iff (begin _ present)).mp both.2
    have backwards : faults.Pairwise fun first second => ¬ second.BeginsIn size first :=
      listed.imp Precedes.not_beginsIn
    have itself : ∀ fault ∈ faults, ¬ fault.BeginsIn size fault :=
      fun fault _ within => Nat.lt_irrefl _ within.1
    exact fun _ inner _ outer => forwards.forall_of_forall_of_flip itself backwards inner outer
  · intro outside
    exact listed.imp_of_mem fun earlier later precedes =>
      (precedes.start_le_iff (begin _ earlier)).mpr (outside _ earlier _ later)

/-- The first of some faults in order is the earliest just if it begins within no other. -/
theorem earliest_iff
    {size : Nat}
    {first : Fault}
    {rest : List Fault}
    (listed : (first :: rest).Pairwise (Precedes size))
    (begins : first.span.start < first.finish size) :
    (∀ fault ∈ rest, first.span.start ≤ fault.span.start) ↔
      ∀ outer ∈ rest, ¬ first.BeginsIn size outer :=
  forall₂_congr fun fault present =>
    ((List.pairwise_cons.mp listed).1 fault present).start_le_iff begins

end Fault

namespace Parser

/-! ## Open blocks -/

/-- An open block begins before what may follow in the innermost one. -/
theorem BlocksFit.start_lt
    {text : Text}
    {blocks : List OpenBlock}
    (fit : BlocksFit text blocks) :
    ∀ block ∈ blocks, block.header.span.start < contentLow blocks := by
  induction blocks with
  | nil => exact nofun
  | cons block outer inductionHypothesis =>
      obtain ⟨outerFit, before, -⟩ := fit
      have behind : contentLow outer ≤ block.header.span.start := before.le
      intro other present
      rcases List.mem_cons.mp present with rfl | isOuter
      · exact Nat.lt_succ_self _
      · have outside := inductionHypothesis outerFit other isOuter
        change other.header.span.start < block.header.span.start + 1
        omega

/-- Of two open blocks the inner one begins last. -/
theorem BlocksFit.ordered
    {text : Text}
    {blocks : List OpenBlock}
    (fit : BlocksFit text blocks) :
    blocks.Pairwise fun inner outer => outer.header.span.start < inner.header.span.start := by
  induction blocks with
  | nil => exact .nil
  | cons block outer inductionHypothesis =>
      obtain ⟨outerFit, before, -⟩ := fit
      refine .cons (fun other present => ?_) (inductionHypothesis outerFit)
      exact Nat.lt_of_lt_of_le (outerFit.start_lt other present) before.le

theorem BlocksFit.solid
    {text : Text}
    {blocks : List OpenBlock}
    (fit : BlocksFit text blocks) :
    ∀ block ∈ blocks, text.SolidAt block.header.span.start := by
  induction blocks with
  | nil => exact nofun
  | cons block outer inductionHypothesis =>
      obtain ⟨outerFit, -, solid⟩ := fit
      exact List.forall_mem_cons.mpr ⟨solid, inductionHypothesis outerFit⟩

/-! ## Preludes -/

namespace Prelude

/-- A token that is no trivia belongs to the content. -/
theorem mem_content
    {pre : Prelude}
    {token : Token}
    (present : token ∈ pre.reversed)
    (solid : token.kind.isTrivia = false) :
    token ∈ pre.content := by
  obtain ⟨lead, trail, around, leadTrivia, trailTrivia⟩ := pre.exists_around_content
  have inAll := List.mem_reverse.mpr present
  rw [around, List.mem_append, List.mem_append] at inAll
  rcases inAll with inLead | inContent | inTrail
  · exact absurd (leadTrivia token inLead) (by simp [solid])
  · exact inContent
  · exact absurd (trailTrivia token inTrail) (by simp [solid])

/-- The bytes of a prelude end behind each of its tokens but trivia. -/
theorem Fits.stop_le
    {text : Text}
    {start finish : Nat}
    {pre : Prelude}
    {span : Span}
    {token : Token}
    (fits : pre.Fits text start finish)
    (covered : pre.span? = some span)
    (present : token ∈ pre.reversed)
    (solid : token.kind.isTrivia = false) :
    token.stop ≤ span.stop := by
  have ordered := fits.ordered_content
  have inContent := mem_content present solid
  obtain ⟨first, rest, content, rfl⟩ := exists_content_of_span? covered
  rw [content] at ordered inContent
  refine Nat.le_trans ?_ (Nat.le_max_left _ _)
  change token.stop ≤ (rest.getLastD first).stop
  rw [List.getLastD_eq_getLast?]
  cases found : rest.getLast? with
  | none =>
      rw [List.getLast?_eq_none_iff.mp found, List.mem_singleton] at inContent
      exact Nat.le_of_eq (congrArg Token.stop inContent)
  | some last =>
      obtain ⟨front, rfl⟩ := List.getLast?_eq_some_iff.mp found
      rw [← List.cons_append] at ordered inContent
      rcases List.mem_append.mp inContent with before | isLast
      · have behind := (List.pairwise_append.mp ordered).2.2 token before last
          (List.mem_singleton_self last)
        exact Nat.le_trans behind (Nat.le_add_right _ _)
      · exact Nat.le_of_eq (congrArg Token.stop (List.mem_singleton.mp isLast))

/-- A prelude begins in one place. -/
theorem Fits.start_eq
    {text : Text}
    {start start' finish finish' : Nat}
    {pre : Prelude}
    (fits : pre.Fits text start finish)
    (again : pre.Fits text start' finish') :
    start = start' := by
  obtain ⟨first, begins, -, rfl, -⟩ := fits.begins
  obtain ⟨other, alsoBegins, -, rfl, -⟩ := again.begins
  unfold BeginsWith at begins alsoBegins
  cases keyword : pre.keyword with
  | some word =>
      rw [keyword] at begins alsoBegins
      exact congrArg Token.start (begins.symm.trans alsoBegins)
  | none =>
      rw [keyword] at begins alsoBegins
      exact congrArg Token.start (Option.some.inj (begins.symm.trans alsoBegins))

end Prelude

/-! ## What has been reported -/

/-- The faults found up to an offset of a text, last first: they are in order, they lie in
what was read, and no open block begins within one of them. -/
structure Reported
    (text : Text)
    (finish : Nat)
    (blocks : List OpenBlock)
    (faults : List Fault) : Prop where
  listed : faults.Pairwise fun later earlier => earlier.Precedes text.byteSize later
  closed : ∀ fault ∈ faults, fault.kind ≠ .unclosedBlock
  places : ∀ fault ∈ faults, fault.span.Fits text 0 finish
  blocks : ∀ fault ∈ faults, ∀ block ∈ blocks,
    fault.span.stop ≤ block.header.span.start ∨ block.header.span.start < fault.span.start

theorem Reported.mono
    {text : Text}
    {finish finish' : Nat}
    {blocks : List OpenBlock}
    {faults : List Fault}
    (reported : Reported text finish blocks faults)
    (later : finish ≤ finish') :
    Reported text finish' blocks faults :=
  { reported with
    places := fun fault present => (reported.places fault present).mono (Nat.le_refl 0) later }

/-- A fault that ends behind all others, and contains those that begin behind its beginning. -/
theorem Reported.cons
    {text : Text}
    {low finish : Nat}
    {blocks : List OpenBlock}
    {faults : List Fault}
    {fault : Fault}
    (reported : Reported text finish blocks faults)
    (closed : fault.kind ≠ .unclosedBlock)
    (place : fault.span.Fits text low finish)
    (inner : ∀ other ∈ faults, other.span.stop ≤ fault.span.start ∨
      fault.span.start < other.span.start ∧ other.span.stop ≤ fault.span.stop)
    (outer : ∀ block ∈ blocks, block.header.span.start < fault.span.start) :
    Reported text finish blocks (fault :: faults) where
  listed := by
    refine .cons (fun other present => ?_) reported.listed
    unfold Fault.Precedes
    rw [Fault.finish_eq_stop _ closed, Fault.finish_eq_stop _ (reported.closed other present)]
    exact inner other present
  closed := List.forall_mem_cons.mpr ⟨closed, reported.closed⟩
  places := List.forall_mem_cons.mpr
    ⟨place.mono (Nat.zero_le low) (Nat.le_refl finish), reported.places⟩
  blocks := List.forall_mem_cons.mpr
    ⟨fun block present => .inr (outer block present), reported.blocks⟩

/-- A fault behind everything that was read. -/
theorem Reported.behind
    {text : Text}
    {finish finish' : Nat}
    {blocks : List OpenBlock}
    {faults : List Fault}
    {fault : Fault}
    (reported : Reported text finish blocks faults)
    (closed : fault.kind ≠ .unclosedBlock)
    (place : fault.span.Fits text finish finish')
    (outer : ∀ block ∈ blocks, block.header.span.start < finish) :
    Reported text finish' blocks (fault :: faults) := by
  have lower := place.low_le
  have wide := place.start_lt_stop
  have upper := place.stop_le
  refine (reported.mono (by omega)).cons closed place (fun other present => ?_)
    fun block present => Nat.lt_of_lt_of_le (outer block present) lower
  exact .inl (Nat.le_trans (reported.places other present).stop_le lower)

/-- A block opens where no fault has been found. -/
theorem Reported.openBlock
    {text : Text}
    {finish : Nat}
    {blocks : List OpenBlock}
    {faults : List Fault}
    {block : OpenBlock}
    (reported : Reported text finish blocks faults)
    (apart : ∀ fault ∈ faults, fault.span.stop ≤ block.header.span.start ∨
      block.header.span.start < fault.span.start) :
    Reported text finish (block :: blocks) faults :=
  { reported with
    blocks := fun fault present =>
      List.forall_mem_cons.mpr ⟨apart fault present, reported.blocks fault present⟩ }

theorem Reported.closeBlock
    {text : Text}
    {finish : Nat}
    {state : State}
    (reported : Reported text finish state.blocks state.faults)
    (close : Span) :
    Reported text finish (state.closeBlock close).blocks (state.closeBlock close).faults := by
  unfold State.closeBlock
  cases blocks : state.blocks with
  | nil => exact reported
  | cons block outer =>
      rw [blocks] at reported
      exact { reported with
        blocks := fun fault present =>
          (List.forall_mem_cons.mp (reported.blocks fault present)).2 }

/-- The faults are those before a prelude and those in it, which end no later than one of
its tokens. -/
def Prelude.Embraces (start : Nat) (pre : Prelude) (faults : List Fault) : Prop :=
  ∀ fault ∈ faults, fault.span.stop ≤ start ∨
    start < fault.span.start ∧
      ∃ token ∈ pre.reversed, token.kind.isTrivia = false ∧ fault.span.stop ≤ token.stop

theorem Prelude.Embraces.push
    {start : Nat}
    {pre : Prelude}
    {faults : List Fault}
    (embraces : pre.Embraces start faults)
    (token : Token) :
    (pre.push token).Embraces start faults :=
  fun fault present => (embraces fault present).imp_right fun ⟨behind, last, held, ends⟩ =>
    ⟨behind, last, List.mem_cons_of_mem token held, ends⟩

/-- What has been reported in a state that is reached at an offset of a text. -/
structure State.Reports (text : Text) (finish : Nat) (state : State) : Prop where
  found : Reported text finish state.blocks state.faults
  pre : ∀ pre ∈ state.pre, ∃ start,
    pre.Fits text start finish ∧ pre.Embraces start state.faults

theorem State.Reports.outside
    {text : Text}
    {finish : Nat}
    {state : State}
    (found : Reported text finish state.blocks state.faults)
    (outside : state.pre = none) :
    state.Reports text finish :=
  ⟨found, by simp [outside]⟩

/-! ## Steps -/

/-- A prelude that ends is reported, if it is no statement, behind what begins in it. -/
theorem Reported.endStatement
    {text : Text}
    {start finish : Nat}
    {state : State}
    {pre : Prelude}
    (reported : Reported text finish state.blocks state.faults)
    (fits : pre.Fits text start finish)
    (embraces : pre.Embraces start state.faults)
    (outer : ∀ block ∈ state.blocks, block.header.span.start < start)
    (semicolon : Option Span) :
    Reported text finish (state.endStatement pre semicolon).blocks
      (state.endStatement pre semicolon).faults := by
  unfold State.endStatement
  cases keyword : pre.keyword with
  | some word => exact reported
  | none =>
      simp only
      split
      · exact reported
      · next span covered =>
          split
          · exact reported
          · obtain ⟨_, again, starts⟩ := fits.exists_span keyword
            obtain rfl := Option.some.inj (again.symm.trans covered)
            refine reported.cons nofun (fits.span? covered) (fun other present => ?_)
              (fun block present => starts ▸ outer block present)
            rw [starts]
            refine (embraces other present).imp_right ?_
            rintro ⟨behind, token, held, solid, ends⟩
            exact ⟨behind, Nat.le_trans ends (fits.stop_le covered held solid)⟩

/-- The prelude being read lies behind the nodes and the open blocks, and in it lie the
faults found since it began. -/
theorem State.Reports.exists_start
    {text : Text}
    {finish : Nat}
    {state : State}
    {pre : Prelude}
    (reports : state.Reports text finish)
    (fits : state.Fits text finish)
    (inside : state.pre = some pre) :
    ∃ start, pre.Fits text start finish ∧ pre.Embraces start state.faults ∧
      ∀ block ∈ state.blocks, block.header.span.start < start := by
  obtain ⟨start, nodes, preFits⟩ := fits.exists_start inside
  obtain ⟨start', again, embraces⟩ := reports.pre pre inside
  obtain rfl := preFits.start_eq again
  exact ⟨start, preFits, embraces, fun block present =>
    Nat.lt_of_lt_of_le (fits.blocks.start_lt block present) nodes.le⟩

/-- What is being read may end at any time. -/
theorem State.Reports.endSource
    {text : Text}
    {finish : Nat}
    {state : State}
    (reports : state.Reports text finish)
    (fits : state.Fits text finish) :
    Reported text finish state.endSource.blocks state.endSource.faults := by
  cases before : state.pre with
  | none =>
      rw [State.endSource_of_outside before]
      exact reports.found
  | some pre =>
      obtain ⟨start, preFits, embraces, outer⟩ := reports.exists_start fits before
      rw [State.endSource_of_inside before]
      exact reports.found.endStatement preFits embraces outer none

/-- Open blocks begin before what is read next. -/
theorem State.Fits.block_start_lt
    {text : Text}
    {finish : Nat}
    {state : State}
    (fits : state.Fits text finish)
    (outside : state.pre = none) :
    ∀ block ∈ state.blocks, block.header.span.start < finish :=
  fun block present => Nat.lt_of_lt_of_le (fits.blocks.start_lt block present)
    (fits.nodes outside).le

/-- What a token reports. -/
theorem reports_step
    {text : Text}
    {finish : Nat}
    {state : State}
    {token : Token}
    (fits : state.Fits text finish)
    (reports : state.Reports text finish)
    (lies : token.Lies text finish token.stop)
    (plain : token.kind ≠ .lineComment) :
    (state.step token).Reports text token.stop := by
  have later : finish ≤ token.stop :=
    Nat.le_trans lies.low_le (Nat.le_of_lt lies.start_lt_stop)
  have before : ∀ fault ∈ state.faults, fault.span.stop ≤ token.start :=
    fun fault present => Nat.le_trans (reports.found.places fault present).stop_le lies.low_le
  have waited : Reported text token.stop state.blocks state.faults := reports.found.mono later
  have ended := reports.endSource fits
  have began {pre : Prelude} (fits : pre.Fits text token.start token.stop) :
      ({ state with pre := some pre } : State).Reports text token.stop := by
    refine ⟨waited, ?_⟩
    rintro _ ⟨⟩
    exact ⟨token.start, fits, fun fault present => .inl (before fault present)⟩
  generalize taken : state.step token = after
  cases State.steps_iff.mpr taken with
  | skip outside | comment outside => exact .outside waited outside
  | keyword _ kind =>
      exact began (Prelude.fits_of_begins lies (by rw [kind]; rfl) rfl (.inl rfl))
  | begins _ begins =>
      have solid := TokenKind.isTrivia_of_beginsPrelude (begins.resolve_right plain)
      exact began (Prelude.fits_of_begins lies solid rfl (.inr rfl))
  | continues inside =>
      obtain ⟨start, preFits, embraces, -⟩ := reports.exists_start fits inside
      refine ⟨waited, ?_⟩
      rintro _ ⟨⟩
      exact ⟨start, preFits.push lies, embraces.push token⟩
  | bareBlock =>
      refine .outside (waited.openBlock fun fault present => ?_) rfl
      exact .inl (before fault present)
  | @block pre inside =>
      obtain ⟨start, preFits, embraces, -⟩ := reports.exists_start fits inside
      refine .outside (waited.openBlock fun fault present => ?_) rfl
      change fault.span.stop ≤ (pre.toHeader token).span.start ∨
        (pre.toHeader token).span.start < fault.span.start
      rw [start_toHeader preFits token]
      exact (embraces fault present).imp_right And.left
  | close =>
      exact .outside ((ended.mono later).closeBlock token.span)
        ((pre_closeBlock _ _).trans (pre_endSource state))
  | stray kind =>
      have outer := fits.endSource.block_start_lt (pre_endSource state)
      exact .outside (ended.behind nofun (lies.span_fits (by rw [kind]; exact nofun)) outer)
        (pre_endSource state)
  | statement inside =>
      obtain ⟨start, preFits, embraces, outer⟩ := reports.exists_start fits inside
      exact .outside ((reports.found.endStatement preFits embraces outer _).mono later)
        (pre_endStatement _ _ _)
  | invalidOutside outside kind =>
      refine .outside (reports.found.behind ?_ (lies.span_fits (by rw [kind]; exact nofun))
        (fits.block_start_lt outside)) outside
      simp only
      split <;> exact nofun
  | invalidInside inside isInvalid =>
      obtain ⟨start, preFits, embraces, outer⟩ := reports.exists_start fits inside
      have begun : start < finish := by
        obtain ⟨first, -, firstLies, rfl, -⟩ := preFits.begins
        exact Nat.lt_of_lt_of_le firstLies.start_lt_stop firstLies.stop_le
      have solid : token.kind ≠ .whitespace := by rw [isInvalid]; exact nofun
      refine ⟨reports.found.behind ?_ (lies.span_fits solid)
        fun block present => Nat.lt_trans (outer block present) begun, ?_⟩
      · simp only
        split <;> exact nofun
      · rintro _ ⟨⟩
        refine ⟨start, preFits.push lies, List.forall_mem_cons.mpr ⟨?_, embraces.push token⟩⟩
        -- The prelude goes on with the token, so that it cannot end before it.
        exact .inr ⟨Nat.lt_of_lt_of_le begun lies.low_le, token, List.mem_cons_self,
          by rw [isInvalid]; rfl, Nat.le_refl _⟩

/-! ## Whole texts -/

/-- What has been reported when all tokens of a text are taken. -/
theorem reports_tokens (text : Text) :
    let taken := (Lexer.tokens .css text).foldl State.step State.start
    taken.Fits text text.byteSize ∧ taken.Reports text text.byteSize := by
  have nothing : State.start.Reports text 0 := .outside ⟨.nil, nofun, nofun, nofun⟩ rfl
  refine @kept_tokens
    (fun finish state => state.Fits text finish ∧ state.Reports text finish) text ?_
    ⟨⟨trivial, Nat.le_refl 0⟩, nothing⟩
  rintro finish state token ⟨fits, reports⟩ lies plain
  exact ⟨fits_step fits lies plain, reports_step fits reports lies plain⟩

/-- What has been reported before the open blocks are closed. -/
theorem reported_run (text : Text) :
    Reported text text.byteSize (run text).blocks (run text).faults := by
  obtain ⟨fits, reports⟩ := reports_tokens text
  exact reports.endSource fits

/-- The fault of a block that is left open. -/
def OpenBlock.fault (block : OpenBlock) : Fault :=
  ⟨.unclosedBlock, block.header.span⟩

/-- How the faults of a text are listed. -/
structure ListsFaults (source : Text) : Prop where
  /-- A fault begins with a character of the text that is no space. -/
  solid : ∀ fault ∈ (parse source).faults, source.SolidAt fault.span.start
  /-- A fault ends behind its beginning, within the text. -/
  extent : ∀ fault ∈ (parse source).faults,
    fault.span.start < fault.finish source.byteSize ∧
      fault.finish source.byteSize ≤ source.byteSize
  /-- Of two faults the first ends before the second begins, or lies in it. -/
  listed : (parse source).faults.Pairwise (Fault.Precedes source.byteSize)
  /-- They begin in the order of the text just if none begins within another one. -/
  ascends_iff :
    ((parse source).faults.map (·.span.start)).Pairwise (· ≤ ·) ↔
      ∀ inner ∈ (parse source).faults, ∀ outer ∈ (parse source).faults,
        ¬ inner.BeginsIn source.byteSize outer
  /-- The first of them is the earliest just if it begins within no other one. -/
  earliest_iff : ∀ first rest, (parse source).faults = first :: rest →
    ((∀ fault ∈ rest, first.span.start ≤ fault.span.start) ↔
      ∀ outer ∈ rest, ¬ first.BeginsIn source.byteSize outer)

/-- The faults of a text come in the order in which they end, the inner ones first. -/
theorem listsFaults (source : Text) : ListsFaults source := by
  have reported := reported_run source
  obtain ⟨fits, -⟩ := fits_run source
  have faults : (parse source).faults =
      (run source).faults.reverse ++ (run source).blocks.map OpenBlock.fault :=
    faults_parse source
  have solid : ∀ fault ∈ (parse source).faults, source.SolidAt fault.span.start := by
    intro fault present
    rw [faults, List.mem_append, List.mem_reverse, List.mem_map] at present
    rcases present with found | ⟨block, isOpen, rfl⟩
    · exact (reported.places fault found).solid
    · exact fits.blocks.solid block isOpen
  have extent : ∀ fault ∈ (parse source).faults,
      fault.span.start < fault.finish source.byteSize ∧
        fault.finish source.byteSize ≤ source.byteSize := by
    intro fault present
    have begins := (solid fault present).lt_byteSize
    rw [faults, List.mem_append, List.mem_reverse, List.mem_map] at present
    rcases present with found | ⟨block, isOpen, rfl⟩
    · rw [Fault.finish_eq_stop _ (reported.closed fault found)]
      have place := reported.places fault found
      exact ⟨place.start_lt_stop, place.stop_le⟩
    · exact ⟨begins, Nat.le_refl _⟩
  have listed : (parse source).faults.Pairwise (Fault.Precedes source.byteSize) := by
    rw [faults, List.pairwise_append, List.pairwise_reverse, List.pairwise_map]
    refine ⟨reported.listed, ?_, fun fault found last isLast => ?_⟩
    · exact fits.blocks.ordered.imp fun inside => .inr ⟨inside, Nat.le_refl _⟩
    · obtain ⟨block, isOpen, rfl⟩ := List.mem_map.mp isLast
      have present := List.mem_reverse.mp found
      unfold Fault.Precedes
      rw [Fault.finish_eq_stop _ (reported.closed fault present)]
      exact (reported.blocks fault present block isOpen).imp_right fun behind =>
        ⟨behind, (reported.places fault present).stop_le⟩
  have begins := fun fault present => (extent fault present).1
  refine ⟨solid, extent, listed, Fault.ascends_iff listed begins, fun first rest split => ?_⟩
  rw [split] at listed begins
  exact Fault.earliest_iff listed (begins first List.mem_cons_self)

/-- A word that is no declaration is reported before the block around it, which begins
first and has no end. -/
theorem faults_of_word_in_unclosed_block :
    (parse ".a \x7b b").faults =
        [⟨.unknownWord "b".toList, ⟨5, 6⟩⟩, ⟨.unclosedBlock, ⟨0, 2⟩⟩] ∧
      ¬ ((parse ".a \x7b b").faults.map (·.span.start)).Pairwise (· ≤ ·) := by
  decide +kernel

end Parser
end StyleTypings
