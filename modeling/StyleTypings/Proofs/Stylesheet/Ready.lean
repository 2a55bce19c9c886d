import StyleTypings.Proofs.Stylesheet.Faultless

/-!
# Statements left open

An at-statement that has not come to its semicolon takes in what follows it, up to a
semicolon or to a block that then is its own. Whatever it takes in, tokens that can
be read where no statement is open bring no fault there either.
-/

namespace StyleTypings

namespace TokenKind

theorem depthAfter_le_depthAfter
    {low high : Nat}
    (less : low ≤ high)
    (kind : TokenKind) :
    kind.depthAfter low ≤ kind.depthAfter high := by
  cases kind
  case openParen => exact Nat.succ_le_succ less
  case closeParen => exact Nat.sub_le_sub_right less 1
  all_goals exact less

/-- Deeper in parentheses a prelude takes in more. -/
theorem continuesPrelude_of_le
    {kind : TokenKind}
    {low high : Nat}
    (less : low ≤ high)
    (continues : kind.continuesPrelude low = true) :
    kind.continuesPrelude high = true := by
  cases kind
  case semicolon =>
    simp only [continuesPrelude, bne_iff_ne] at continues ⊢
    omega
  all_goals exact continues

end TokenKind

namespace Parser

theorem Runs.of_le
    {low high : Nat}
    {tokens : List Token}
    (runs : Runs low tokens)
    (less : low ≤ high) :
    Runs high tokens := by
  induction tokens generalizing low high with
  | nil => trivial
  | cons token rest inductionHypothesis =>
      obtain ⟨continues, later⟩ := runs
      exact ⟨TokenKind.continuesPrelude_of_le less continues,
        inductionHypothesis later (TokenKind.depthAfter_le_depthAfter less token.kind)⟩

/-- No block is open and nothing is at fault, and a prelude being read is that of an
at-rule. -/
structure State.Ready (state : State) : Prop extends State.Clean state where
  atRule : ∀ pre, state.pre = some pre → pre.keyword ≠ none

namespace State.Ready

variable {state : State}

theorem withPre
    (ready : state.Ready)
    {pre : Prelude}
    (atRule : pre.keyword ≠ none) :
    ({ state with pre := some pre } : State).Ready where
  blocks := ready.blocks
  faults := ready.faults
  atRule := by
    rintro _ ⟨⟩
    exact atRule

theorem withNodes
    (ready : state.Ready)
    (nodes : List Node) :
    (state.withNodes nodes).Ready :=
  ⟨⟨ready.blocks, ready.faults⟩, ready.atRule⟩

/-- At the end of the source the at-statement left open ends. -/
theorem endStatement
    (ready : state.Ready)
    {pre : Prelude}
    (atRule : pre.keyword ≠ none)
    (semicolon : Option Span) :
    (state.endStatement pre semicolon).Ready := by
  unfold State.endStatement
  cases keyword : pre.keyword with
  | none => exact absurd keyword atRule
  | some word => exact ⟨⟨ready.blocks, ready.faults⟩, nofun⟩

theorem endSource (ready : state.Ready) : state.endSource.Clean := by
  cases inside : state.pre with
  | none =>
      rw [endSource_of_outside inside]
      exact ready.toClean
  | some pre =>
      rw [endSource_of_inside inside]
      exact (ready.endStatement (ready.atRule pre inside) none).toClean

/-- Separators and comments are skipped or taken in, or end the at-statement. -/
theorem step
    (ready : state.Ready)
    {token : Token}
    (separates : token.kind = .whitespace ∨ token.kind = .semicolon ∨ token.kind = .comment) :
    (state.step token).Ready := by
  have noEnd : token.kind ≠ .openBrace ∧ token.kind ≠ .closeBrace ∧ token.kind ≠ .invalid := by
    rcases separates with kind | kind | kind <;> rw [kind] <;> decide
  generalize taken : state.step token = after
  cases steps_iff.mpr taken with
  | skip => exact ready
  | comment => exact ⟨⟨ready.blocks, ready.faults⟩, ready.atRule⟩
  | keyword => exact ready.withPre (Option.some_ne_none token)
  | begins _ begins =>
      rcases separates with kind | kind | kind <;> rw [kind] at begins <;>
        exact begins.elim nofun nofun
  | @continues pre inside => exact ready.withPre (ready.atRule pre inside)
  | @statement pre inside => exact ready.endStatement (ready.atRule pre inside) _
  | bareBlock _ isOpen | block _ isOpen => exact absurd isOpen noEnd.1
  | close isClose | stray isClose => exact absurd isClose noEnd.2.1
  | invalidOutside _ isInvalid | invalidInside _ isInvalid => exact absurd isInvalid noEnd.2.2

/-- The prelude of an at-rule begins or is taken in. -/
theorem foldl_prelude
    (ready : state.Ready)
    {tokens : List Token}
    (isPrelude : IsPrelude tokens)
    (atRule : (Prelude.ofTokens tokens).keyword ≠ none) :
    (tokens.foldl State.step state).Ready := by
  cases inside : state.pre with
  | none =>
      rw [foldl_of_isPrelude inside isPrelude]
      exact ready.withPre atRule
  | some pre =>
      cases tokens with
      | nil => exact isPrelude.elim
      | cons first rest =>
          rw [foldl_of_runs inside (isPrelude.2.of_le (Nat.zero_le pre.depth)),
            Prelude.foldl_push]
          exact ready.withPre (ready.atRule pre inside)

end State.Ready

/-- A brace opens a block, be it that of the at-statement left open. -/
theorem State.exists_openBlock
    (state : State)
    {head : List Token}
    {brace : Token}
    (isHead : head = [] ∨ IsPrelude head)
    (isOpen : brace.kind = .openBrace) :
    ∃ header, (head ++ [brace]).foldl State.step state = state.openBlock header := by
  cases inside : state.pre with
  | none => exact ⟨_, foldl_of_head inside isHead isOpen⟩
  | some pre =>
      have runs : Runs pre.depth head := by
        rcases isHead with rfl | isPrelude
        · trivial
        · cases head with
          | nil => exact isPrelude.elim
          | cons first rest => exact isPrelude.2.of_le (Nat.zero_le pre.depth)
      rw [List.foldl_append, foldl_of_runs inside runs, List.foldl_cons,
        (Steps.block rfl isOpen).step_eq]
      exact ⟨_, rfl⟩

/-- What is no statement outside all blocks has no at-keyword. -/
theorem keyword_ne_none_of_statement?
    {pre : Prelude}
    {semicolon : Option Span}
    {node : Node}
    (isStatement : pre.statement? false semicolon = some node) :
    pre.keyword ≠ none := by
  intro keyword
  unfold Prelude.statement? at isStatement
  simp only [keyword] at isStatement
  exact absurd isStatement nofun

/-- Tokens that can be read outside all blocks are taken without a fault, even behind
an at-statement left open. -/
theorem Reads.exists_ready
    {nested : Bool}
    {tokens rest : List Token}
    {nodes : List Node}
    (reads : Reads nested tokens nodes rest)
    (outside : nested = false)
    {state : State}
    (ready : state.Ready) :
    ∃ next : State, next.Ready ∧
      tokens.foldl State.step state = rest.foldl State.step next := by
  induction reads generalizing state with
  | done nested tokens => exact ⟨state, ready, rfl⟩
  | skip separates _ inductionHypothesis =>
      exact inductionHypothesis outside (ready.step (separates.imp_right .inl))
  | comment isComment _ inductionHypothesis =>
      exact inductionHypothesis outside (ready.step (.inr (.inr isComment)))
  | statement isPrelude level isSemicolon isStatement _ inductionHypothesis =>
      subst outside
      rw [List.foldl_append, List.foldl_cons]
      exact inductionHypothesis rfl
        ((ready.foldl_prelude isPrelude (keyword_ne_none_of_statement? isStatement)).step
          (.inr (.inl isSemicolon)))
  | block isHead isOpen within ends isClose _ _ laterHypothesis =>
      -- The header may be that of the statement left open, which the head is taken into.
      obtain ⟨header, opened⟩ := state.exists_openBlock isHead isOpen
      rw [List.append_cons, List.foldl_append, opened, within.foldl_eq rfl rfl,
        List.append_cons, List.foldl_append, State.foldl_of_ends rfl rfl ends isClose]
      exact laterHypothesis outside ⟨⟨ready.blocks, ready.faults⟩, nofun⟩

theorem Ends.ready
    {tail : List Token}
    {last : List Node}
    (ends : Ends false tail last)
    {state : State}
    (ready : state.Ready) :
    (tail.foldl State.step state).Ready := by
  cases ends with
  | closed => exact ready
  | unfinished isPrelude isStatement =>
      exact ready.foldl_prelude isPrelude (keyword_ne_none_of_statement? isStatement)

theorem ReadsAll.ready
    {tokens : List Token}
    {nodes : List Node}
    (reads : ReadsAll tokens nodes)
    {state : State}
    (ready : state.Ready) :
    (tokens.foldl State.step state).Ready := by
  obtain ⟨front, tail, last, reads, ends, -⟩ := reads
  obtain ⟨next, nextReady, taken⟩ := reads.exists_ready rfl ready
  rw [taken]
  exact ends.ready nextReady

end Parser
end StyleTypings
