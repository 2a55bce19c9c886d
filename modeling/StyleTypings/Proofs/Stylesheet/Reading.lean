import StyleTypings.Proofs.Stylesheet.Statements

/-!
# What the parser reads

`Reads` says which nodes the tokens at the front of a list come to, as rules over
finite trees: separators and comments, statements with a semicolon, and blocks
with their own contents. Only the last statement of a block or of a text may do
without its semicolon; `Ends` is for that one.

The parser follows these rules: taking tokens that read as some nodes adds just
these nodes, whatever has been found before.
-/

namespace StyleTypings
namespace Parser

/-- What the tokens at the end of a block or of a text come to: nothing, or a
statement without a semicolon. -/
inductive Ends (nested : Bool) : List Token → List Node → Prop
  | closed : Ends nested [] []
  | unfinished
      {tokens : List Token}
      {node : Node}
      (isPrelude : IsPrelude tokens)
      (isStatement : (Prelude.ofTokens tokens).statement? nested none = some node) :
      Ends nested tokens [node]

/-- The tokens at the front of a list read as nodes and leave the rest. -/
inductive Reads : Bool → List Token → List Node → List Token → Prop
  | done (nested : Bool) (tokens : List Token) : Reads nested tokens [] tokens
  /-- Whitespace and semicolons separate. -/
  | skip
      {nested : Bool}
      {token : Token}
      {tokens rest : List Token}
      {nodes : List Node}
      (separates : token.kind = .whitespace ∨ token.kind = .semicolon)
      (later : Reads nested tokens nodes rest) :
      Reads nested (token :: tokens) nodes rest
  | comment
      {nested : Bool}
      {token : Token}
      {tokens rest : List Token}
      {nodes : List Node}
      (isComment : token.kind = .comment)
      (later : Reads nested tokens nodes rest) :
      Reads nested (token :: tokens) (.comment token.text token.span :: nodes) rest
  /-- A semicolon outside parentheses ends a statement. -/
  | statement
      {nested : Bool}
      {head tokens rest : List Token}
      {semicolon : Token}
      {node : Node}
      {nodes : List Node}
      (isPrelude : IsPrelude head)
      (level : nesting 0 head = 0)
      (isSemicolon : semicolon.kind = .semicolon)
      (isStatement : (Prelude.ofTokens head).statement? nested (some semicolon.span) =
        some node)
      (later : Reads nested tokens nodes rest) :
      Reads nested (head ++ semicolon :: tokens) (node :: nodes) rest
  /-- A block stands between braces, behind its prelude if there is one. -/
  | block
      {nested : Bool}
      {head body tail tokens rest : List Token}
      {brace close : Token}
      {inner last nodes : List Node}
      (isHead : head = [] ∨ IsPrelude head)
      (isOpen : brace.kind = .openBrace)
      (within : Reads true body inner (tail ++ close :: tokens))
      (ends : Ends true tail last)
      (isClose : close.kind = .closeBrace)
      (later : Reads nested tokens nodes rest) :
      Reads nested (head ++ brace :: body)
        (((Prelude.ofTokens head).toHeader brace).toNode (inner ++ last) close.span :: nodes)
        rest

/-- What reads behind what has been read reads with it. -/
theorem Reads.trans
    {nested : Bool}
    {tokens middle rest : List Token}
    {front back : List Node}
    (first : Reads nested tokens front middle)
    (second : Reads nested middle back rest) :
    Reads nested tokens (front ++ back) rest := by
  induction first with
  | done nested tokens => exact second
  | skip separates _ inductionHypothesis => exact .skip separates (inductionHypothesis second)
  | comment isComment _ inductionHypothesis =>
      exact .comment isComment (inductionHypothesis second)
  | statement isPrelude level isSemicolon isStatement _ inductionHypothesis =>
      exact .statement isPrelude level isSemicolon isStatement (inductionHypothesis second)
  | block isHead isOpen within ends isClose _ _ inductionHypothesis =>
      exact .block isHead isOpen within ends isClose (inductionHypothesis second)

/-- Reading looks at nothing behind what it takes. -/
theorem Reads.exists_front
    {nested : Bool}
    {tokens rest : List Token}
    {nodes : List Node}
    (reads : Reads nested tokens nodes rest) :
    ∃ front, tokens = front ++ rest ∧
      ∀ other, Reads nested (front ++ other) nodes other := by
  induction reads with
  | done nested tokens => exact ⟨[], rfl, .done nested⟩
  | @skip _ token _ _ _ separates _ inductionHypothesis =>
      obtain ⟨front, rfl, free⟩ := inductionHypothesis
      exact ⟨token :: front, rfl, fun other => .skip separates (free other)⟩
  | @comment _ token _ _ _ isComment _ inductionHypothesis =>
      obtain ⟨front, rfl, free⟩ := inductionHypothesis
      exact ⟨token :: front, rfl, fun other => .comment isComment (free other)⟩
  | @statement _ head _ _ semicolon _ _ isPrelude level isSemicolon isStatement _
      inductionHypothesis =>
      obtain ⟨front, rfl, free⟩ := inductionHypothesis
      refine ⟨head ++ semicolon :: front, by simp, fun other => ?_⟩
      rw [List.append_assoc, List.cons_append]
      exact .statement isPrelude level isSemicolon isStatement (free other)
  | @block _ head _ tail _ _ brace close _ _ _ isHead isOpen _ ends isClose _
      withinHypothesis laterHypothesis =>
      obtain ⟨body, rfl, within⟩ := withinHypothesis
      obtain ⟨front, rfl, free⟩ := laterHypothesis
      refine ⟨head ++ brace :: (body ++ (tail ++ close :: front)), by simp, fun other => ?_⟩
      rw [List.append_assoc, List.cons_append, List.append_assoc, List.append_assoc,
        List.cons_append]
      exact .block isHead isOpen (within _) ends isClose (free other)

/-! ## The parser follows the rules -/

namespace State

/-- Behind the end of a block its closing brace closes it. -/
theorem foldl_of_ends
    {state : State}
    {block : OpenBlock}
    {outer : List OpenBlock}
    {tail : List Token}
    {last : List Node}
    {close : Token}
    (outside : state.pre = none)
    (blocks : state.blocks = block :: outer)
    (ends : Ends true tail last)
    (isClose : close.kind = .closeBrace) :
    (tail ++ [close]).foldl step state =
      { blocks := outer
        nodes :=
          block.header.toNode (state.nodes.reverse ++ last) close.span :: block.before
        pre := none
        faults := state.faults } := by
  obtain ⟨_, nodes, _, faults⟩ := state
  obtain rfl := outside
  obtain rfl := blocks
  cases ends with
  | closed =>
      rw [List.nil_append, List.append_nil, List.foldl_cons, step_of_closeBrace isClose,
        endSource_of_outside rfl]
      rfl
  | unfinished isPrelude isStatement =>
      rw [List.foldl_append, foldl_of_isPrelude rfl isPrelude, List.foldl_cons,
        step_of_closeBrace isClose, endSource_of_inside rfl, endStatement_of_statement? isStatement]
      simp [addNode, closeBlock]

/-- The header of a block opens it. -/
theorem foldl_of_head
    {state : State}
    {head : List Token}
    {brace : Token}
    (outside : state.pre = none)
    (isHead : head = [] ∨ IsPrelude head)
    (isOpen : brace.kind = .openBrace) :
    (head ++ [brace]).foldl step state =
      state.openBlock ((Prelude.ofTokens head).toHeader brace) := by
  rcases isHead with rfl | isPrelude
  · exact (Steps.bareBlock outside isOpen).step_eq
  · rw [List.foldl_append, foldl_of_isPrelude outside isPrelude, List.foldl_cons,
      (Steps.block rfl isOpen).step_eq]
    rfl

/-- A semicolon outside parentheses ends the statement before it. -/
theorem foldl_of_statement
    {state : State}
    {head : List Token}
    {semicolon : Token}
    {node : Node}
    (outside : state.pre = none)
    (isPrelude : IsPrelude head)
    (level : nesting 0 head = 0)
    (isSemicolon : semicolon.kind = .semicolon)
    (isStatement : (Prelude.ofTokens head).statement? state.isNested (some semicolon.span) =
      some node) :
    (head ++ [semicolon]).foldl step state = state.addNode node := by
  let begun : State := { state with pre := some (.ofTokens head) }
  have ended : begun.endStatement (.ofTokens head) (some semicolon.span) =
      ({ begun with pre := none } : State).addNode node :=
    endStatement_of_statement? isStatement
  have restored : ({ begun with pre := none } : State) = state := by
    rw [← outside]
  rw [← Prelude.depth_ofTokens] at level
  rw [List.foldl_append, foldl_of_isPrelude outside isPrelude, List.foldl_cons,
    (Steps.statement rfl isSemicolon level).step_eq, ended, restored]
  rfl

end State

/-- Taking tokens that read as nodes adds these nodes. -/
theorem Reads.foldl_eq
    {nested : Bool}
    {tokens rest : List Token}
    {nodes : List Node}
    (reads : Reads nested tokens nodes rest)
    {state : State}
    (outside : state.pre = none)
    (level : state.isNested = nested) :
    tokens.foldl State.step state = rest.foldl State.step (state.withNodes nodes) := by
  induction reads generalizing state with
  | done nested tokens => rfl
  | skip separates _ inductionHypothesis =>
      rw [List.foldl_cons, (State.Steps.skip outside (separates.imp_right .inl)).step_eq]
      exact inductionHypothesis outside level
  | comment isComment _ inductionHypothesis =>
      rw [List.foldl_cons, (State.Steps.comment outside isComment).step_eq, State.withNodes_cons]
      exact inductionHypothesis outside level
  | @statement _ head tokens _ semicolon _ _ isPrelude nesting isSemicolon isStatement _
      inductionHypothesis =>
      rw [List.append_cons, List.foldl_append, State.withNodes_cons,
        State.foldl_of_statement outside isPrelude nesting isSemicolon (level ▸ isStatement)]
      exact inductionHypothesis outside level
  | @block _ head body tail tokens _ brace close inner last _ isHead isOpen _ ends isClose _
      withinHypothesis laterHypothesis =>
      let header := (Prelude.ofTokens head).toHeader brace
      have entered : body.foldl State.step (state.openBlock header) =
          (tail ++ close :: tokens).foldl State.step
            ((state.openBlock header).withNodes inner) :=
        withinHypothesis rfl rfl
      have closed : (tail ++ [close]).foldl State.step
          ((state.openBlock header).withNodes inner) =
            state.addNode (header.toNode (inner ++ last) close.span) := by
        rw [State.foldl_of_ends rfl rfl ends isClose]
        simp [State.withNodes, State.openBlock, State.addNode, outside]
      rw [List.append_cons, List.foldl_append, State.foldl_of_head outside isHead isOpen,
        entered, List.append_cons, List.foldl_append, closed, State.withNodes_cons]
      exact laterHypothesis outside level

/-! ## Trivia -/

/-- The comments among some tokens, as nodes. -/
def commentsOf : List Token → List Node
  | [] => []
  | token :: rest =>
      if token.kind = .comment then
        .comment token.text token.span :: commentsOf rest
      else
        commentsOf rest

/-- Trivia reads as the comments in it. -/
theorem reads_trivia
    {lead : List Token}
    (plain : ∀ token ∈ lead, token.kind.isPlain = true)
    (trivia : ∀ token ∈ lead, token.kind.isTrivia = true)
    (nested : Bool)
    (tokens : List Token) :
    Reads nested (lead ++ tokens) (commentsOf lead) tokens := by
  induction lead with
  | nil => exact .done nested tokens
  | cons token rest inductionHypothesis =>
      have isPlain := plain token List.mem_cons_self
      have isTrivia := trivia token List.mem_cons_self
      have reads := inductionHypothesis
        (fun other present => plain other (List.mem_cons_of_mem token present))
        (fun other present => trivia other (List.mem_cons_of_mem token present))
      rw [commentsOf]
      cases kind : token.kind
      case whitespace =>
        rw [if_neg nofun]
        exact .skip (.inl kind) reads
      case comment =>
        rw [if_pos rfl]
        exact .comment kind reads
      all_goals simp_all [TokenKind.isTrivia, TokenKind.isPlain]

theorem exists_comment_of_mem_commentsOf
    {tokens : List Token}
    {node : Node}
    (present : node ∈ commentsOf tokens) :
    ∃ text span, node = .comment text span := by
  induction tokens with
  | nil => exact absurd present List.not_mem_nil
  | cons token rest inductionHypothesis =>
      rw [commentsOf] at present
      split at present
      · rcases List.mem_cons.mp present with rfl | later
        · exact ⟨_, _, rfl⟩
        · exact inductionHypothesis later
      · exact inductionHypothesis present

theorem commentsOf_eq_nil
    {tokens : List Token}
    (none : ∀ token ∈ tokens, token.kind ≠ .comment) :
    commentsOf tokens = [] := by
  induction tokens with
  | nil => rfl
  | cons token rest inductionHypothesis =>
      rw [commentsOf, if_neg (none token List.mem_cons_self)]
      exact inductionHypothesis fun other present => none other (List.mem_cons_of_mem token present)

end Parser
end StyleTypings
