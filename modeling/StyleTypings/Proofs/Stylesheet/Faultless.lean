import StyleTypings.Proofs.Stylesheet.Reading

/-!
# Everything without faults can be read

Faults are never taken back. Tokens that end without any are split into preludes
as long as they can be, and each of them turns out to be a statement or the head
of a block, so the rules of reading apply to all of them. A text is therefore
parsed without faults exactly if its tokens can be read, and then into the nodes
that they read as.
-/

namespace StyleTypings
namespace Parser

/-! ## Where preludes end -/

/-- Tokens that run on from a nesting, up to the first that does not. -/
theorem exists_runs (depth : Nat) (tokens : List Token) :
    ∃ front next, tokens = front ++ next ∧ Runs depth front ∧
      ∀ token ∈ next.head?, token.kind.continuesPrelude (nesting depth front) = false := by
  induction tokens generalizing depth with
  | nil => exact ⟨[], [], rfl, trivial, nofun⟩
  | cons token rest inductionHypothesis =>
      cases continues : token.kind.continuesPrelude depth with
      | false =>
          refine ⟨[], token :: rest, rfl, trivial, ?_⟩
          rintro other ⟨⟩
          exact continues
      | true =>
          obtain ⟨front, next, rfl, runs, stops⟩ :=
            inductionHypothesis (token.kind.depthAfter depth)
          exact ⟨token :: front, next, rfl, ⟨continues, runs⟩, stops⟩

/-- What begins a prelude goes on as a prelude that ends as late as possible. -/
theorem exists_isPrelude
    {first : Token}
    (tokens : List Token)
    (begins : first.kind.beginsPrelude = true) :
    ∃ head next, first :: tokens = head ++ next ∧ IsPrelude head ∧
      ∀ token ∈ next.head?, token.kind.continuesPrelude (nesting 0 head) = false := by
  obtain ⟨front, next, rfl, runs, stops⟩ :=
    exists_runs (first.kind.depthAfter 0) tokens
  exact ⟨first :: front, next, rfl,
    ⟨begins, TokenKind.continuesPrelude_of_beginsPrelude begins 0, runs⟩, stops⟩

/-- The tokens left after all statements: none at the end of a text, and a
closing brace with what follows it at the end of a block. -/
inductive Stops : Bool → List Token → Prop
  | source : Stops false []
  | brace
      {close : Token}
      (isClose : close.kind = .closeBrace)
      (others : List Token) :
      Stops true (close :: others)

/-- What begins a prelude covers some bytes. -/
theorem span?_ofTokens_ne_none
    {tokens : List Token}
    (isPrelude : IsPrelude tokens)
    (noKeyword : (Prelude.ofTokens tokens).keyword = none) :
    (Prelude.ofTokens tokens).span? ≠ none := by
  cases tokens with
  | nil => exact isPrelude.elim
  | cons first rest =>
      have solid := TokenKind.isTrivia_of_beginsPrelude isPrelude.1
      rw [Prelude.ofTokens] at noKeyword ⊢
      split
      · next keyword =>
          rw [if_pos keyword] at noKeyword
          exact absurd noKeyword (Option.some_ne_none first)
      · obtain ⟨others, content⟩ :=
          @Prelude.content_eq_cons ⟨none, (first :: rest).reverse, _⟩ first (by simp) solid
        rw [Prelude.span?_of_content content]
        exact Option.some_ne_none _

namespace State

theorem faults_endStatement_suffix
    (state : State)
    (pre : Prelude)
    (semicolon : Option Span) :
    state.faults <:+ (state.endStatement pre semicolon).faults := by
  unfold endStatement
  cases pre.keyword with
  | some keyword => exact List.suffix_refl _
  | none =>
      simp only
      split
      · exact List.suffix_refl _
      · split
        · exact List.suffix_refl _
        · exact List.suffix_cons _ _

theorem faults_closeBlock (state : State) (close : Span) :
    (state.closeBlock close).faults = state.faults := by
  unfold closeBlock
  split <;> rfl

theorem faults_endSource_suffix (state : State) :
    state.faults <:+ state.endSource.faults := by
  unfold endSource
  split
  · exact List.suffix_refl _
  · exact faults_endStatement_suffix state _ none

/-- Every fault found stays. -/
theorem faults_step_suffix (state : State) (token : Token) :
    state.faults <:+ (state.step token).faults := by
  have ended := faults_endSource_suffix state
  generalize taken : state.step token = after
  cases steps_iff.mpr taken with
  | close => exact (faults_closeBlock state.endSource token.span).symm ▸ ended
  | stray => exact ended.trans (List.suffix_cons _ _)
  | statement => exact faults_endStatement_suffix state _ _
  | invalidOutside | invalidInside => exact List.suffix_cons _ _
  | _ => exact List.suffix_refl _

theorem faults_foldl_suffix (state : State) (tokens : List Token) :
    state.faults <:+ (tokens.foldl step state).faults := by
  induction tokens generalizing state with
  | nil => exact List.suffix_refl _
  | cons token rest inductionHypothesis =>
      exact (faults_step_suffix state token).trans (inductionHypothesis _)

/-- No block is open and nothing is at fault. -/
structure Clean (state : State) : Prop where
  blocks : state.blocks = []
  faults : state.faults = []

/-- What ends without faults has none on the way. -/
theorem Clean.faults_eq_nil
    {state : State}
    {tokens : List Token}
    (clean : (tokens.foldl step state).endSource.Clean) :
    state.faults = [] := by
  have suffix := (faults_foldl_suffix state tokens).trans (faults_endSource_suffix _)
  rw [clean.faults] at suffix
  exact List.eq_nil_of_suffix_nil suffix

end State

/-- A prelude that ends without a fault is a statement. -/
theorem exists_statement?
    {state : State}
    {head : List Token}
    {semicolon : Option Span}
    (isPrelude : IsPrelude head)
    (faultless : (state.endStatement (.ofTokens head) semicolon).faults = []) :
    ∃ node, (Prelude.ofTokens head).statement? state.isNested semicolon = some node := by
  cases isStatement : (Prelude.ofTokens head).statement? state.isNested semicolon with
  | some node => exact ⟨node, rfl⟩
  | none =>
      obtain ⟨fault, added⟩ := State.faults_endStatement_of_statement? isStatement
        (span?_ofTokens_ne_none isPrelude)
      rw [added] at faultless
      exact absurd faultless nofun

/-- Tokens that can be read up to the end of a text, or up to the closing brace of
a block. -/
def Readable (nested : Bool) (tokens : List Token) : Prop :=
  ∃ nodes tail last rest,
    Reads nested tokens nodes (tail ++ rest) ∧ Ends nested tail last ∧ Stops nested rest

/-- What reads before readable tokens is readable with them. -/
theorem Readable.behind
    {nested : Bool}
    {tokens rest : List Token}
    {nodes : List Node}
    (reads : Reads nested tokens nodes rest)
    (readable : Readable nested rest) :
    Readable nested tokens := by
  obtain ⟨more, tail, last, others, later, ends, stops⟩ := readable
  exact ⟨nodes ++ more, tail, last, others, reads.trans later, ends, stops⟩

/-- A block can be read if its contents and what follows can. -/
theorem readable_of_block
    {state : State}
    {head body : List Token}
    {brace : Token}
    (outside : state.pre = none)
    (isHead : head = [] ∨ IsPrelude head)
    (isOpen : brace.kind = .openBrace)
    (clean : ((head ++ brace :: body).foldl State.step state).endSource.Clean)
    (shorter : ∀ (state : State) (tokens : List Token), tokens <:+ body →
      state.pre = none → (tokens.foldl State.step state).endSource.Clean →
        Readable state.isNested tokens) :
    Readable state.isNested (head ++ brace :: body) := by
  let header := (Prelude.ofTokens head).toHeader brace
  rw [List.append_cons, List.foldl_append, State.foldl_of_head outside isHead isOpen] at clean
  obtain ⟨inner, tail, last, rest, within, ends, stops⟩ :=
    shorter (state.openBlock header) body (List.suffix_refl _) rfl clean
  cases stops with
  | @brace close isClose others =>
      have entered : body.foldl State.step (state.openBlock header) =
          others.foldl State.step
            (state.addNode (header.toNode (inner ++ last) close.span)) := by
        rw [within.foldl_eq rfl rfl, List.append_cons, List.foldl_append,
          State.foldl_of_ends rfl rfl ends isClose]
        simp [State.withNodes, State.openBlock, State.addNode, outside]
      rw [entered] at clean
      obtain ⟨front, split, -⟩ := within.exists_front
      have later : Readable state.isNested others :=
        shorter (state.addNode _) others
          ⟨front ++ (tail ++ [close]), by simp [split]⟩ outside clean
      exact later.behind (.block isHead isOpen within ends isClose (.done _ others))

/-- A prelude and what follows it can be read if what follows its end can. -/
theorem readable_of_prelude
    {state : State}
    {head next : List Token}
    (outside : state.pre = none)
    (isPrelude : IsPrelude head)
    (stops : ∀ token ∈ next.head?, token.kind.continuesPrelude (nesting 0 head) = false)
    (plain : ∀ token ∈ next, token.kind.isPlain = true)
    (clean : ((head ++ next).foldl State.step state).endSource.Clean)
    (shorter : ∀ (state : State) (tokens : List Token), tokens <:+ next.tail →
      state.pre = none → (tokens.foldl State.step state).endSource.Clean →
        Readable state.isNested tokens) :
    Readable state.isNested (head ++ next) := by
  let begun : State := { state with pre := some (.ofTokens head) }
  have restored : ({ begun with pre := none } : State) = state := by
    rw [← outside]
  have taken := clean
  rw [List.foldl_append, State.foldl_of_isPrelude outside isPrelude] at taken
  cases next with
  | nil =>
      have ended : (begun.endStatement (.ofTokens head) none).Clean := taken
      obtain ⟨node, isStatement⟩ := exists_statement? isPrelude ended.faults
      rw [State.endStatement_of_statement? isStatement, restored] at ended
      have level : state.isNested = false := by
        simpa [State.isNested, State.addNode] using ended.blocks
      have isLast : (Prelude.ofTokens head).statement? state.isNested none = some node :=
        isStatement
      rw [level] at isLast ⊢
      exact ⟨[], head, [node], [], .done _ _, .unfinished isPrelude isLast, .source⟩
  | cons token rest =>
      have isPlain := plain token List.mem_cons_self
      have stop := stops token rfl
      have taken : (rest.foldl State.step (begun.step token)).endSource.Clean := taken
      generalize stepped : begun.step token = after at taken
      cases State.steps_iff.mpr stepped with
      | continues inside continues =>
          obtain rfl := Option.some.inj inside
          rw [Prelude.depth_ofTokens, stop] at continues
          exact absurd continues Bool.false_ne_true
      | block _ isOpen => exact readable_of_block outside (.inr isPrelude) isOpen clean shorter
      | close isClose nested =>
          have faultless := taken.faults_eq_nil
          rw [State.faults_closeBlock] at faultless
          obtain ⟨node, isStatement⟩ := exists_statement? isPrelude faultless
          have isLast : (Prelude.ofTokens head).statement? state.isNested none = some node :=
            isStatement
          have ended : begun.endSource = state.addNode node := by
            rw [State.endSource_of_inside rfl, State.endStatement_of_statement? isStatement, restored]
          have level : state.isNested = true := by
            rw [ended] at nested
            simpa [State.isNested, State.addNode] using nested
          rw [level] at isLast ⊢
          exact ⟨[], head, [node], token :: rest, .done _ _, .unfinished isPrelude isLast,
            .brace isClose rest⟩
      | stray => exact absurd taken.faults_eq_nil (List.cons_ne_nil _ _)
      | statement inside isSemicolon level =>
          obtain rfl := Option.some.inj inside
          rw [Prelude.depth_ofTokens] at level
          obtain ⟨node, isStatement⟩ := exists_statement? isPrelude taken.faults_eq_nil
          rw [List.append_cons, List.foldl_append,
            State.foldl_of_statement outside isPrelude level isSemicolon isStatement] at clean
          have later : Readable state.isNested rest :=
            shorter (state.addNode node) rest (List.suffix_refl _) outside clean
          exact later.behind
            (.statement isPrelude level isSemicolon isStatement (.done _ rest))
      | invalidInside _ isInvalid =>
          rw [isInvalid] at isPlain
          exact absurd isPlain (by decide)
      | skip outside | comment outside | keyword outside | begins outside | bareBlock outside
      | invalidOutside outside => exact absurd outside (Option.some_ne_none _)

/-- Tokens that end without faults can be read. -/
theorem readable_of_clean
    {state : State}
    {tokens : List Token}
    (plain : ∀ token ∈ tokens, token.kind.isPlain = true)
    (outside : state.pre = none)
    (clean : (tokens.foldl State.step state).endSource.Clean) :
    Readable state.isNested tokens := by
  induction length : tokens.length using Nat.strongRecOn generalizing state tokens with
  | _ size inductionHypothesis =>
  subst length
  have shorter {middle : List Token} (within : middle <:+ tokens)
      (less : middle.length < tokens.length)
      (state : State) (others : List Token) (suffix : others <:+ middle)
      (outside : state.pre = none)
      (clean : (others.foldl State.step state).endSource.Clean) :
      Readable state.isNested others :=
    inductionHypothesis _ (Nat.lt_of_le_of_lt suffix.length_le less)
      (fun token present => plain token (within.subset (suffix.subset present)))
      outside clean rfl
  cases tokens with
  | nil =>
      have level : state.isNested = false := by
        have blocks := clean.blocks
        rw [List.foldl_nil, State.endSource_of_outside outside] at blocks
        simp [State.isNested, blocks]
      rw [level]
      exact ⟨[], [], [], [], .done _ _, .closed, .source⟩
  | cons first rest =>
      by_cases begins : first.kind.beginsPrelude = true
      · obtain ⟨head, next, split, isPrelude, stops⟩ := exists_isPrelude rest begins
        have nonempty : 0 < head.length := by
          cases head with
          | nil => exact isPrelude.elim
          | cons first others => exact Nat.succ_pos _
        rw [split] at clean plain shorter ⊢
        refine readable_of_prelude outside isPrelude stops
          (fun token present => plain token (List.mem_append_right _ present)) clean
          (shorter ((List.tail_suffix next).trans (List.suffix_append head next)) ?_)
        rw [List.length_tail, List.length_append]
        omega
      · have later := shorter (List.suffix_cons first rest) (Nat.lt_succ_self _)
        have isPlain := plain first List.mem_cons_self
        have taken := clean
        rw [List.foldl_cons] at taken
        generalize stepped : state.step first = after at taken
        cases State.steps_iff.mpr stepped with
        | skip _ separates =>
            have kinds : first.kind = .whitespace ∨ first.kind = .semicolon :=
              separates.imp_right fun kinds => kinds.resolve_right fun isEnd => by
                rw [isEnd] at isPlain
                exact absurd isPlain (by decide)
            exact (later state rest (List.suffix_refl _) outside taken).behind
              (.skip kinds (.done _ rest))
        | comment _ isComment =>
            have readable : Readable state.isNested rest :=
              later (state.addNode _) rest (List.suffix_refl _) outside taken
            exact readable.behind (.comment isComment (.done _ rest))
        | keyword _ isKeyword =>
            rw [isKeyword] at begins
            exact absurd rfl begins
        | begins _ isFirst =>
            refine absurd (isFirst.resolve_right fun isComment => ?_) begins
            rw [isComment] at isPlain
            exact absurd isPlain (by decide)
        | bareBlock _ isOpen => exact readable_of_block outside (.inl rfl) isOpen clean later
        | close isClose nested =>
            rw [State.endSource_of_outside outside] at nested
            have level : state.isNested = true := by simpa [State.isNested] using nested
            rw [level]
            exact ⟨[], [], [], first :: rest, .done _ _, .closed, .brace isClose rest⟩
        | stray => exact absurd taken.faults_eq_nil (List.cons_ne_nil _ _)
        | invalidOutside _ isInvalid =>
            rw [isInvalid] at isPlain
            exact absurd isPlain (by decide)
        | continues inside | block inside | statement inside | invalidInside inside =>
            exact absurd (inside.symm.trans outside) (Option.some_ne_none _)

/-! ## Whole texts -/

/-- The tokens of a text read as some nodes, and the last statement may do without
its semicolon. -/
def ReadsAll (tokens : List Token) (nodes : List Node) : Prop :=
  ∃ front tail last,
    Reads false tokens front tail ∧ Ends false tail last ∧ nodes = front ++ last

namespace State

/-- At the end of the source the last statement ends. -/
theorem endSource_foldl_of_ends
    {state : State}
    {nested : Bool}
    {tail : List Token}
    {last : List Node}
    (outside : state.pre = none)
    (level : state.isNested = nested)
    (ends : Ends nested tail last) :
    (tail.foldl step state).endSource = state.withNodes last := by
  subst level
  cases ends with
  | closed =>
      rw [List.foldl_nil, endSource_of_outside outside]
      rfl
  | unfinished isPrelude isStatement =>
      let begun : State := { state with pre := some (.ofTokens tail) }
      have restored : ({ begun with pre := none } : State) = state := by
        rw [← outside]
      have ended : begun.endStatement (.ofTokens tail) none =
          ({ begun with pre := none } : State).addNode _ :=
        endStatement_of_statement? isStatement
      rw [foldl_of_isPrelude outside isPrelude, endSource_of_inside rfl, ended, restored]
      rfl

/-- Each block left open adds a fault behind those found before. -/
theorem faults_closeAll
    (finish : Span)
    (blocks : List OpenBlock)
    (nodes : List Node)
    (faults : List Fault) :
    (closeAll finish blocks nodes faults).2 =
      faults.reverse ++ blocks.map fun block => ⟨.unclosedBlock, block.header.span⟩ := by
  induction blocks generalizing nodes faults with
  | nil => exact (List.append_nil _).symm
  | cons block outer inductionHypothesis =>
      rw [closeAll, inductionHypothesis, List.reverse_cons, List.append_assoc]
      rfl

/-- A comment or string that does not end is a fault wherever it stands. -/
theorem faults_foldl_ne_nil
    {state : State}
    {tokens : List Token}
    {token : Token}
    (present : token ∈ tokens)
    (isInvalid : token.kind = .invalid) :
    (tokens.foldl step state).faults ≠ [] := by
  obtain ⟨front, back, rfl⟩ := List.append_of_mem present
  have added (before : State) : (before.step token).faults ≠ [] := by
    obtain ⟨pre, added⟩ := step_invalid isInvalid before
    rw [added]
    exact nofun
  rw [List.foldl_append, List.foldl_cons]
  intro faultless
  have suffix := faults_foldl_suffix ((front.foldl step state).step token) back
  rw [faultless] at suffix
  exact added _ (List.eq_nil_of_suffix_nil suffix)

end State

/-- The faults of a parsed text are those found on the way, and the blocks left open. -/
theorem faults_parse (source : Text) :
    (parse source).faults =
      (run source).faults.reverse ++
        (run source).blocks.map fun block => ⟨.unclosedBlock, block.header.span⟩ :=
  State.faults_closeAll (.empty source.byteSize) (run source).blocks (run source).nodes
    (run source).faults

/-- A text is parsed without faults exactly if all blocks are closed and nothing
is at fault after its last token. -/
theorem faults_parse_eq_nil_iff (source : Text) :
    (parse source).faults = [] ↔ (run source).Clean := by
  rw [faults_parse, List.append_eq_nil_iff, List.reverse_eq_nil_iff, List.map_eq_nil_iff]
  exact ⟨fun ⟨faults, blocks⟩ => ⟨blocks, faults⟩, fun ⟨blocks, faults⟩ => ⟨faults, blocks⟩⟩

/-- The tokens of a text are those of CSS, if they end. -/
theorem isPlain_of_mem_tokens
    {source : Text}
    {token : Token}
    (present : token ∈ Lexer.tokens .css source)
    (valid : token.kind ≠ .invalid) :
    token.kind.isPlain = true := by
  have lexed := Lexeme.mem_of_mem_place present
  have noLineComment : token.kind ≠ .lineComment :=
    Lexer.kind_ne_lineComment_of_mem_lexemes _ lexed
  have noEnd : token.kind ≠ .endOfFile := Lexer.kind_ne_endOfFile_of_mem_lexemes _ lexed
  cases kind : token.kind <;> simp_all [TokenKind.isPlain]

/-- The tokens of a text without faults are those of CSS, and all of them end. -/
theorem isPlain_of_faults_parse
    {source : Text}
    (faultless : (parse source).faults = []) :
    ∀ token ∈ Lexer.tokens .css source, token.kind.isPlain = true := by
  intro token present
  refine isPlain_of_mem_tokens present fun isInvalid => ?_
  have clean := ((faults_parse_eq_nil_iff source).mp faultless).faults
  have suffix := State.faults_endSource_suffix
    ((Lexer.tokens .css source).foldl State.step State.start)
  unfold run at clean
  rw [clean] at suffix
  exact State.faults_foldl_ne_nil present isInvalid (List.eq_nil_of_suffix_nil suffix)

/-- A text whose tokens read as nodes is parsed into them without faults. -/
theorem ReadsAll.parse_eq
    {source : Text}
    {nodes : List Node}
    (reads : ReadsAll (Lexer.tokens .css source) nodes) :
    parse source = ⟨⟨nodes, ⟨0, source.byteSize⟩⟩, []⟩ := by
  obtain ⟨front, tail, last, reads, ends, rfl⟩ := reads
  have taken : (Lexer.tokens .css source).foldl State.step State.start =
      tail.foldl State.step (State.start.withNodes front) := reads.foldl_eq rfl rfl
  have ended : (tail.foldl State.step (State.start.withNodes front)).endSource =
      (State.start.withNodes front).withNodes last :=
    State.endSource_foldl_of_ends rfl rfl ends
  have final : run source = (State.start.withNodes front).withNodes last := by
    unfold run
    rw [taken, ended]
  unfold parse
  rw [final]
  simp [State.withNodes, State.start, State.closeAll]

/-- A text that is parsed without faults reads as the nodes it is parsed into. -/
theorem readsAll_parse
    {source : Text}
    (faultless : (parse source).faults = []) :
    ReadsAll (Lexer.tokens .css source) (parse source).sheet.nodes := by
  have clean := (faults_parse_eq_nil_iff source).mp faultless
  obtain ⟨nodes, tail, last, rest, reads, ends, stops⟩ :=
    readable_of_clean (isPlain_of_faults_parse faultless) (rfl : State.start.pre = none) clean
  generalize level : State.start.isNested = nested at reads ends stops
  cases stops with
  | brace isClose others => exact absurd level nofun
  | source =>
      rw [List.append_nil] at reads
      have readsAll : ReadsAll (Lexer.tokens .css source) (nodes ++ last) :=
        ⟨nodes, tail, last, reads, ends, rfl⟩
      rw [readsAll.parse_eq]
      exact readsAll

end Parser
end StyleTypings
