import StyleTypings.Proofs.Stylesheet.Joining
import StyleTypings.Proofs.Stylesheet.Outlines
import StyleTypings.Proofs.Stylesheet.Ready

/-!
# Parsing texts put together

Behind a text that leaves no statement open, another is parsed as it is by itself, and
the outlines of the two stand one behind the other. Behind one that leaves an
at-statement open, nothing is promised but that there are no faults.
-/

namespace StyleTypings
namespace Parser

/-- The state behind the last token of a text. -/
def State.behind (text : Text) : State :=
  (Lexer.tokens .css text).foldl State.step State.start

/-- What is left behind a text is alike for two amounts of whitespace at its end. -/
structure State.Spaced (state other : State) : Prop where
  outside : state.pre = none → other = state
  ready : state.Ready → other.Ready

theorem State.spaced_refl (state : State) : State.Spaced state state :=
  ⟨fun _ => rfl, id⟩

/-- A prelude takes in whitespace, and outside of one it is skipped. -/
theorem State.spaced_step
    (state : State)
    {left right : Token}
    (isLeft : left.kind = .whitespace)
    (isRight : right.kind = .whitespace) :
    State.Spaced (state.step left) (state.step right) := by
  cases inside : state.pre with
  | none =>
      rw [(Steps.skip inside (.inl isLeft)).step_eq, (Steps.skip inside (.inl isRight)).step_eq]
      exact spaced_refl state
  | some pre =>
      rw [(Steps.continues inside (by rw [isLeft]; rfl)).step_eq,
        (Steps.continues inside (by rw [isRight]; rfl)).step_eq]
      refine ⟨nofun, fun ready => ?_⟩
      refine ⟨⟨ready.blocks, ready.faults⟩, ?_⟩
      rintro _ ⟨⟩
      exact ready.atRule (pre.push left) rfl

/-- Behind a text the tokens of another are taken, of whose whitespace at the front
some may be taken with the first. -/
theorem State.exists_behind_append
    {front back : Text}
    (joins : Lexer.Joins (Lexer.lexemes .css 0 front) (Lexer.lexemes .css 0 back)
      (Lexer.lexemes .css 0 (front ++ back))) :
    ∃ (next : State) (tokens : List Token), State.Spaced (State.behind front) next ∧
      State.behind (front ++ back) = tokens.foldl State.step next ∧
        (Lexer.lexemes .css 0 back = tokens.map Token.lexeme ∨
          ∃ space, Lexer.lexemes .css 0 back =
            ⟨.whitespace, space⟩ :: tokens.map Token.lexeme) := by
  unfold State.behind Lexer.tokens
  generalize Lexer.lexemes .css 0 front = left at joins ⊢
  generalize Lexer.lexemes .css 0 back = right at joins ⊢
  generalize Lexer.lexemes .css 0 (front ++ back) = whole at joins ⊢
  cases joins with
  | apart =>
      refine ⟨_, Lexeme.place (0 + Text.byteSize (left.flatMap Lexeme.text)) right,
        spaced_refl _, ?_, .inl (Lexeme.map_lexeme_place _ right).symm⟩
      rw [Lexeme.place_append, List.foldl_append]
  | merged left right space more =>
      let before := (Lexeme.place 0 left).foldl step start
      let offset := 0 + Text.byteSize (left.flatMap Lexeme.text)
      let merged : Token := ⟨.whitespace, space ++ more, offset⟩
      have taken : (Lexeme.place 0 (left ++ [⟨.whitespace, space⟩])).foldl step start =
          before.step ⟨.whitespace, space, offset⟩ := by
        rw [Lexeme.place_append, List.foldl_append]
        rfl
      have takenMore : (Lexeme.place 0 (left ++ ⟨.whitespace, space ++ more⟩ :: right)).foldl
          step start = (Lexeme.place merged.stop right).foldl step (before.step merged) := by
        rw [Lexeme.place_append, List.foldl_append]
        rfl
      rw [taken]
      refine ⟨before.step merged, Lexeme.place merged.stop right, spaced_step before rfl rfl,
        takenMore, .inr ⟨more, ?_⟩⟩
      rw [Lexeme.map_lexeme_place]

/-- Whitespace in front of what reads up to an end may as well be missing. -/
theorem Reads.of_whitespace
    {nested : Bool}
    {space : Token}
    {tokens tail : List Token}
    {nodes last : List Node}
    (reads : Reads nested (space :: tokens) nodes tail)
    (ends : Ends nested tail last)
    (isSpace : space.kind = .whitespace) :
    Reads nested tokens nodes tail := by
  have noPrelude (others : List Token) : ¬ IsPrelude (space :: others) := by
    rintro ⟨begins, -⟩
    rw [isSpace] at begins
    exact absurd begins nofun
  generalize whole : space :: tokens = all at reads
  cases reads with
  | done nested =>
      subst whole
      cases ends with
      | unfinished isPrelude => exact absurd isPrelude (noPrelude tokens)
  | skip separates later =>
      obtain ⟨rfl, rfl⟩ := List.cons.inj whole
      exact later
  | comment isComment later =>
      obtain ⟨rfl, rfl⟩ := List.cons.inj whole
      exact absurd (isSpace.symm.trans isComment) nofun
  | @statement _ head _ _ _ _ _ isPrelude =>
      cases head with
      | nil => exact isPrelude.elim
      | cons first rest =>
          obtain ⟨rfl, -⟩ := List.cons.inj whole
          exact absurd isPrelude (noPrelude rest)
  | @block _ head _ _ _ _ _ _ _ _ _ isHead isOpen =>
      cases head with
      | nil =>
          obtain ⟨rfl, -⟩ := List.cons.inj whole
          exact absurd (isSpace.symm.trans isOpen) nofun
      | cons first rest =>
          obtain ⟨rfl, -⟩ := List.cons.inj whole
          exact absurd (isHead.resolve_left (List.cons_ne_nil _ _)) (noPrelude rest)

/-- Tokens of the same lexemes read as nodes of the same outlines, with or without
whitespace in front. -/
theorem Reads.relocate_behind
    {text : Text}
    {nodes last : List Node}
    {tail tokens : List Token}
    (reads : Reads false (Lexer.tokens .css text) nodes tail)
    (ends : Ends false tail last)
    (lexed : Lexer.lexemes .css 0 text = tokens.map Token.lexeme ∨
      ∃ space, Lexer.lexemes .css 0 text = ⟨.whitespace, space⟩ :: tokens.map Token.lexeme) :
    ∃ moved left movedLast, Reads false tokens moved left ∧ Ends false left movedLast ∧
      tail.map Token.lexeme = left.map Token.lexeme ∧
        Node.outlineAll moved = Node.outlineAll nodes ∧
          Node.outlineAll movedLast = Node.outlineAll last := by
  have general {front : List Token} (reads : Reads false front nodes tail)
      (same : front.map Token.lexeme = tokens.map Token.lexeme) :
      ∃ moved left movedLast, Reads false tokens moved left ∧ Ends false left movedLast ∧
        tail.map Token.lexeme = left.map Token.lexeme ∧
          Node.outlineAll moved = Node.outlineAll nodes ∧
            Node.outlineAll movedLast = Node.outlineAll last := by
    obtain ⟨moved, left, reads, behind, outlines⟩ := reads.relocate same
    obtain ⟨movedLast, ends, lastOutlines⟩ := ends.relocate behind
    exact ⟨moved, left, movedLast, reads, ends, behind, outlines, lastOutlines⟩
  unfold Lexer.tokens at reads
  rcases lexed with same | ⟨space, same⟩
  · exact general reads (by rw [Lexeme.map_lexeme_place, same])
  · rw [same, Lexeme.place] at reads
    exact general (reads.of_whitespace ends rfl) (Lexeme.map_lexeme_place _ _)

/-! ## Texts by themselves -/

/-- A text is read to its end as nodes of these outlines, and leaves no statement
open. -/
def ReadsAs (text : Text) (outlines : List Outline) : Prop :=
  ∃ nodes, Reads false (Lexer.tokens .css text) nodes [] ∧ Node.outlineAll nodes = outlines

/-- A text is read to its end as nodes of these outlines, of which the last may be an
at-statement left open. -/
def ReadsAllAs (text : Text) (outlines : List Outline) : Prop :=
  ∃ nodes, ReadsAll (Lexer.tokens .css text) nodes ∧ Node.outlineAll nodes = outlines

theorem ReadsAs.readsAllAs
    {text : Text}
    {outlines : List Outline}
    (reads : ReadsAs text outlines) :
    ReadsAllAs text outlines := by
  obtain ⟨nodes, reads, rfl⟩ := reads
  exact ⟨nodes, ⟨nodes, [], [], reads, .closed, (List.append_nil nodes).symm⟩, rfl⟩

theorem map_lexeme_tokens
    {text : Text}
    {tokens : List Token}
    (lexed : Lexer.lexemes .css 0 text = tokens.map Token.lexeme) :
    tokens.map Token.lexeme = (Lexer.tokens .css text).map Token.lexeme := by
  rw [← lexed]
  exact (Lexeme.map_lexeme_place 0 _).symm

/-- A text is read as the tokens of its lexemes are, wherever these stand. -/
theorem Reads.readsAs
    {text : Text}
    {tokens : List Token}
    {nodes : List Node}
    (reads : Reads false tokens nodes [])
    (lexed : Lexer.lexemes .css 0 text = tokens.map Token.lexeme) :
    ReadsAs text (Node.outlineAll nodes) := by
  obtain ⟨moved, left, reads, behind, outlines⟩ := reads.relocate (map_lexeme_tokens lexed)
  obtain rfl := List.map_eq_nil_iff.mp behind.symm
  exact ⟨moved, reads, outlines⟩

theorem ReadsAll.readsAllAs
    {text : Text}
    {tokens : List Token}
    {nodes : List Node}
    (reads : ReadsAll tokens nodes)
    (lexed : Lexer.lexemes .css 0 text = tokens.map Token.lexeme) :
    ReadsAllAs text (Node.outlineAll nodes) :=
  reads.relocate (map_lexeme_tokens lexed)

/-- What has been read ends with a token that nothing can follow on. -/
theorem Reads.exists_settled
    {nested : Bool}
    {tokens rest : List Token}
    {nodes : List Node}
    (reads : Reads nested tokens nodes rest) :
    ∃ front, tokens = front ++ rest ∧ ∀ last ∈ front.getLast?, Lexer.Settled last.kind := by
  have behind (front more : List Token) (token : Token) (settled : Lexer.Settled token.kind)
      (later : ∀ last ∈ more.getLast?, Lexer.Settled last.kind) :
      ∀ last ∈ (front ++ token :: more).getLast?, Lexer.Settled last.kind := by
    intro last isLast
    rw [List.getLast?_append, List.getLast?_cons] at isLast
    obtain rfl := Option.some.inj isLast
    cases found : more.getLast? with
    | none => exact settled
    | some other => exact later other found
  induction reads with
  | done nested tokens => exact ⟨[], rfl, nofun⟩
  | @skip _ token _ _ _ separates _ inductionHypothesis =>
      obtain ⟨front, rfl, settled⟩ := inductionHypothesis
      refine ⟨token :: front, rfl, behind [] front token ?_ settled⟩
      exact separates.imp_right fun kind => by rw [kind]; rfl
  | @comment _ token _ _ _ isComment _ inductionHypothesis =>
      obtain ⟨front, rfl, settled⟩ := inductionHypothesis
      exact ⟨token :: front, rfl, behind [] front token (.inr (by rw [isComment]; rfl)) settled⟩
  | @statement _ head _ _ semicolon _ _ _ _ isSemicolon _ _ inductionHypothesis =>
      obtain ⟨front, rfl, settled⟩ := inductionHypothesis
      exact ⟨head ++ semicolon :: front, by simp,
        behind head front semicolon (.inr (by rw [isSemicolon]; rfl)) settled⟩
  | @block _ head _ tail _ _ brace close _ _ _ _ _ within _ isClose _ _ laterHypothesis =>
      obtain ⟨body, rfl, -⟩ := within.exists_front
      obtain ⟨front, rfl, settled⟩ := laterHypothesis
      exact ⟨(head ++ brace :: (body ++ tail)) ++ close :: front, by simp,
        behind _ front close (.inr (by rw [isClose]; rfl)) settled⟩

theorem ReadsAs.endsApart
    {text : Text}
    {outlines : List Outline}
    (reads : ReadsAs text outlines) :
    Lexer.EndsApart text := by
  obtain ⟨nodes, reads, -⟩ := reads
  obtain ⟨front, split, settled⟩ := reads.exists_settled
  rw [List.append_nil] at split
  intro last isLast
  rw [← Lexeme.map_lexeme_place 0 (Lexer.lexemes .css 0 text), List.getLast?_map] at isLast
  obtain ⟨token, found, rfl⟩ := Option.map_eq_some_iff.mp isLast
  exact settled token (split ▸ found)

/-! ## Texts behind others -/

/-- A text comes to nodes of these outlines and leaves nothing open, so that another
can follow it. -/
structure Closes (text : Text) (outlines : List Outline) : Prop where
  nodes : ∃ nodes, State.behind text = State.start.withNodes nodes ∧
    Node.outlineAll nodes = outlines
  apart : Lexer.EndsApart text

theorem closes_nil : Closes [] [] := by
  refine ⟨⟨[], ?_, rfl⟩, Lexer.endsApart_nil⟩
  unfold State.behind Lexer.tokens
  rw [Lexer.lexemes]
  rfl

/-- What is read to its end behind a closed text closes with it. -/
theorem Closes.append
    {front back : Text}
    {first second : List Outline}
    (closes : Closes front first)
    (reads : ReadsAs back second) :
    Closes (front ++ back) (first ++ second) := by
  have apart := reads.endsApart
  obtain ⟨⟨nodes, reached, rfl⟩, frontApart⟩ := closes
  obtain ⟨next, tokens, spaced, behind, lexed⟩ :=
    State.exists_behind_append (frontApart.joins back)
  obtain ⟨more, reads, rfl⟩ := reads
  obtain ⟨moved, left, -, reads, -, same, outlines, -⟩ := reads.relocate_behind .closed lexed
  obtain rfl := List.map_eq_nil_iff.mp same.symm
  have outside : next = State.start.withNodes nodes := by
    rw [spaced.outside (by rw [reached]; rfl), reached]
  refine ⟨⟨nodes ++ moved, ?_, ?_⟩, frontApart.append apart⟩
  · rw [behind, outside, reads.foldl_eq rfl rfl, State.withNodes_append]
    rfl
  · rw [Node.outlineAll_append, outlines]

/-- Behind a closed text the end of a source may leave an at-statement open. -/
theorem Closes.parse
    {front back : Text}
    {first second : List Outline}
    (closes : Closes front first)
    (reads : ReadsAllAs back second) :
    (parse (front ++ back)).faults = [] ∧
      Node.outlineAll (parse (front ++ back)).sheet.nodes = first ++ second := by
  obtain ⟨⟨nodes, reached, rfl⟩, frontApart⟩ := closes
  obtain ⟨next, tokens, spaced, behind, lexed⟩ :=
    State.exists_behind_append (frontApart.joins back)
  obtain ⟨_, ⟨more, tail, last, reads, ends, rfl⟩, rfl⟩ := reads
  obtain ⟨moved, left, movedLast, reads, ends, -, outlines, lastOutlines⟩ :=
    reads.relocate_behind ends lexed
  have outside : next = State.start.withNodes nodes := by
    rw [spaced.outside (by rw [reached]; rfl), reached]
  have ended : (left.foldl State.step ((State.start.withNodes nodes).withNodes moved)).endSource =
      ((State.start.withNodes nodes).withNodes moved).withNodes movedLast :=
    State.endSource_foldl_of_ends rfl rfl ends
  have final : run (front ++ back) =
      State.start.withNodes (nodes ++ (moved ++ movedLast)) := by
    change (State.behind (front ++ back)).endSource = _
    rw [behind, outside, reads.foldl_eq rfl rfl, ended, State.withNodes_append,
      State.withNodes_append]
  have parsed : (Parser.parse (front ++ back)).sheet.nodes = nodes ++ (moved ++ movedLast) := by
    unfold Parser.parse
    rw [final]
    simp [State.withNodes, State.start, State.closeAll]
  refine ⟨(faults_parse_eq_nil_iff _).mpr ?_, ?_⟩
  · rw [final]
    exact ⟨rfl, rfl⟩
  · rw [parsed]
    simp only [Node.outlineAll_append, outlines, lastOutlines]

/-- A text leaves at most an at-statement open, and another can follow it. -/
structure Continuable (text : Text) : Prop where
  ready : (State.behind text).Ready
  apart : Lexer.EndsApart text

theorem continuable_nil : Continuable [] := by
  obtain ⟨⟨nodes, reached, -⟩, apart⟩ := closes_nil
  refine ⟨?_, apart⟩
  rw [reached]
  exact ⟨⟨rfl, rfl⟩, nofun⟩

/-- Behind what leaves at most an at-statement open, what can be read brings no
fault. -/
theorem ready_behind_append
    {front back : Text}
    {outlines : List Outline}
    (ready : (State.behind front).Ready)
    (joins : Lexer.Joins (Lexer.lexemes .css 0 front) (Lexer.lexemes .css 0 back)
      (Lexer.lexemes .css 0 (front ++ back)))
    (reads : ReadsAllAs back outlines) :
    (State.behind (front ++ back)).Ready := by
  obtain ⟨next, tokens, spaced, behind, lexed⟩ := State.exists_behind_append joins
  obtain ⟨_, ⟨more, tail, last, reads, ends, rfl⟩, -⟩ := reads
  obtain ⟨moved, left, movedLast, reads, ends, -⟩ := reads.relocate_behind ends lexed
  have readsAll : ReadsAll tokens (moved ++ movedLast) :=
    ⟨moved, left, movedLast, reads, ends, rfl⟩
  rw [behind]
  exact readsAll.ready (spaced.ready ready)

theorem Continuable.append
    {front back : Text}
    {outlines : List Outline}
    (continuable : Continuable front)
    (reads : ReadsAs back outlines) :
    Continuable (front ++ back) :=
  ⟨ready_behind_append continuable.ready (continuable.apart.joins back) reads.readsAllAs,
    continuable.apart.append reads.endsApart⟩

theorem faults_parse_of_ready
    {text : Text}
    (ready : (State.behind text).Ready) :
    (parse text).faults = [] :=
  (faults_parse_eq_nil_iff text).mpr ready.endSource

/-- All lexemes end before which nothing is at fault. -/
theorem valid_of_ready
    {text : Text}
    (ready : (State.behind text).Ready) :
    ∀ lexeme ∈ Lexer.lexemes .css 0 text, lexeme.kind ≠ .invalid := by
  intro lexeme present isInvalid
  rw [← Lexeme.map_lexeme_place 0 (Lexer.lexemes .css 0 text)] at present
  obtain ⟨token, among, rfl⟩ := List.mem_map.mp present
  exact State.faults_foldl_ne_nil among isInvalid ready.faults

theorem readsAs_lineFeed : ReadsAs ['\n'] [] := by
  refine ⟨[], ?_, rfl⟩
  unfold Lexer.tokens
  rw [Lexer.lexemes_lineFeed]
  exact .skip (.inl rfl) (.done false [])

/-- With a line feed behind it, another text can follow. -/
theorem continuable_append_lineFeed
    {text : Text}
    (ready : (State.behind text).Ready) :
    Continuable (text ++ ['\n']) :=
  ⟨ready_behind_append ready (Lexer.joins_lineFeed (valid_of_ready ready))
      readsAs_lineFeed.readsAllAs,
    Lexer.endsApart_append_lineFeed (valid_of_ready ready)⟩

/-- Behind a line feed another text can follow. -/
theorem continuable_of_getLast?
    {text : Text}
    (ready : (State.behind text).Ready)
    (feed : text.getLast? = some '\n') :
    Continuable text :=
  ⟨ready, Lexer.endsApart_of_getLast? (valid_of_ready ready) feed⟩

end Parser
end StyleTypings
