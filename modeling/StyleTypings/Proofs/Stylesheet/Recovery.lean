import Mathlib.Order.Fin.Basic
import StyleTypings.Proofs.Stylesheet.Braces
import StyleTypings.Proofs.Stylesheet.Faultless

/-!
# What parsing recovers

However malformed a text is, its blocks are those that its braces open and close:
every open brace begins a block, and a block ends with the closing brace that the
stack of braces pairs with the open one, or at the end of the text. Closing braces
without partner, open braces without partner, and tokens that do not end are faults,
one each.

Apart from braces and tokens that do not end, every token leaves the open blocks as they
are and adds at most nodes without blocks and unknown words.
-/

namespace StyleTypings
namespace Parser

/-- The only faults added are unknown words. -/
def AddsUnknown (before after : State) : Prop :=
  ∃ unknown, after.faults = unknown ++ before.faults ∧
    ∀ fault ∈ unknown, ∃ word, fault.kind = .unknownWord word

/-- Nothing happens but that nodes without blocks are found, and unknown words. -/
structure Quiet (before after : State) : Prop where
  blocks : after.blocks = before.blocks
  nodes : ∃ leaves, after.nodes = leaves ++ before.nodes ∧
    ∀ leaf ∈ leaves, leaf.hasBlock = false
  faults : AddsUnknown before after

namespace State

/-! ## Quiet tokens -/

theorem quiet_pre (state : State) (pre : Option Prelude) : Quiet state { state with pre } :=
  ⟨rfl, ⟨[], rfl, nofun⟩, [], rfl, nofun⟩

theorem quiet_leaf
    {state : State}
    {leaf : Node}
    (isLeaf : leaf.hasBlock = false)
    (pre : Option Prelude) :
    Quiet state { state with nodes := leaf :: state.nodes, pre } :=
  ⟨rfl, ⟨[leaf], rfl, by simpa using isLeaf⟩, [], rfl, nofun⟩

theorem quiet_endStatement (state : State) (pre : Prelude) (semicolon : Option Span) :
    Quiet state (state.endStatement pre semicolon) := by
  unfold endStatement
  cases pre.keyword with
  | some keyword => exact quiet_leaf rfl none
  | none =>
      simp only
      split
      · exact quiet_pre state none
      · split
        · exact quiet_leaf rfl none
        · exact ⟨rfl, ⟨[], rfl, nofun⟩, [_], rfl, by simp [unknownWord]⟩

theorem quiet_endSource (state : State) : Quiet state state.endSource := by
  unfold endSource
  split
  · exact quiet_pre state state.pre
  · exact quiet_endStatement state _ none

/-- All other tokens are quiet. -/
theorem quiet_step
    {token : Token}
    (noOpen : token.kind ≠ .openBrace)
    (noClose : token.kind ≠ .closeBrace)
    (valid : token.kind ≠ .invalid)
    (state : State) :
    Quiet state (state.step token) := by
  generalize taken : state.step token = after
  cases steps_iff.mpr taken with
  | skip => exact quiet_pre state state.pre
  | comment => exact quiet_leaf rfl state.pre
  | keyword | begins | continues => exact quiet_pre state _
  | statement => exact quiet_endStatement state _ _
  | bareBlock _ isOpen | block _ isOpen => exact absurd isOpen noOpen
  | close isClose | stray isClose => exact absurd isClose noClose
  | invalidOutside _ isInvalid | invalidInside _ isInvalid => exact absurd isInvalid valid

end State

/-! ## What is being read -/

/-- The tokens that the prelude of a state holds behind its at-keyword. -/
def State.read (state : State) : List Token :=
  match state.pre with
  | none => []
  | some pre => pre.reversed.reverse

theorem read_step (state : State) (token : Token) :
    (state.step token).read <:+ state.read ++ [token] := by
  have nothing {after : State} (outside : after.pre = none) :
      after.read <:+ state.read ++ [token] := by
    unfold State.read
    rw [outside]
    exact List.nil_suffix
  have pushed {pre : Prelude} (inside : state.pre = some pre) (faults : List Fault) :
      State.read { state with pre := some (pre.push token), faults } <:+
        state.read ++ [token] := by
    unfold State.read
    rw [inside]
    exact ⟨[], List.reverse_cons⟩
  generalize taken : state.step token = after
  cases State.steps_iff.mpr taken with
  | skip outside | comment outside | invalidOutside outside => exact nothing outside
  | keyword => exact List.nil_suffix
  | begins => exact List.suffix_append _ _
  | continues inside | invalidInside inside => exact pushed inside _
  | bareBlock | block => exact nothing rfl
  | close => exact nothing ((pre_closeBlock _ _).trans (pre_endSource state))
  | stray => exact nothing (pre_endSource state)
  | statement => exact nothing (pre_endStatement _ _ _)

/-- What is being read stands behind what was taken. -/
theorem read_foldl (state : State) (tokens : List Token) :
    (tokens.foldl State.step state).read <:+ state.read ++ tokens := by
  induction tokens generalizing state with
  | nil => exact ⟨[], (List.append_nil state.read).symm⟩
  | cons token rest inductionHypothesis =>
      have first := read_step state token
      obtain ⟨passed, split⟩ := first
      refine (inductionHypothesis (state.step token)).trans ⟨passed, ?_⟩
      rw [← List.append_assoc, split, List.append_assoc]
      rfl

/-! ## Blocks -/

/-- The blocks that have begun: those before the innermost open block, that block, and
those in it. -/
def lineagesOf : List OpenBlock → List Node → Lineages
  | [], nodes => Lineages.start.fill nodes.reverse
  | block :: outer, nodes => (lineagesOf outer block.before).enter.fill nodes.reverse

/-- The blocks that have begun in a state. -/
def State.lineages (state : State) : Lineages :=
  lineagesOf state.blocks state.nodes

/-- Nodes found behind others in the innermost block. -/
theorem lineagesOf_append
    (blocks : List OpenBlock)
    (more nodes : List Node) :
    lineagesOf blocks (more ++ nodes) = (lineagesOf blocks nodes).fill more.reverse := by
  cases blocks with
  | nil => rw [lineagesOf, lineagesOf, List.reverse_append, Lineages.fill_append]
  | cons block outer =>
      rw [lineagesOf, lineagesOf, List.reverse_append, Lineages.fill_append]

theorem length_above_lineagesOf (blocks : List OpenBlock) (nodes : List Node) :
    (lineagesOf blocks nodes).above.length = blocks.length := by
  induction blocks generalizing nodes with
  | nil => rfl
  | cons block outer inductionHypothesis =>
      exact congrArg Nat.succ (inductionHypothesis block.before)

theorem hasBlock_toNode (header : Header) (nodes : List Node) (close : Span) :
    (header.toNode nodes close).hasBlock = true := by
  cases header <;> rfl

/-- Closing a block leaves the blocks that have begun. -/
theorem lineagesOf_toNode
    (block : OpenBlock)
    (outer : List OpenBlock)
    (nodes : List Node)
    (close : Span) :
    lineagesOf outer (block.header.toNode nodes.reverse close :: block.before) =
      (lineagesOf (block :: outer) nodes).leave := by
  have filled := lineagesOf_append outer [block.header.toNode nodes.reverse close] block.before
  rw [List.singleton_append, List.reverse_singleton,
    Lineages.fill_block (hasBlock_toNode _ _ _), children_toNode] at filled
  exact filled

theorem Quiet.lineages
    {before after : State}
    (quiet : Quiet before after) :
    after.lineages = before.lineages := by
  obtain ⟨leaves, nodes, areLeaves⟩ := quiet.nodes
  unfold State.lineages
  rw [quiet.blocks, nodes, lineagesOf_append]
  exact Lineages.fill_leaves (fun leaf present => areLeaves leaf (List.mem_reverse.mp present)) _

/-- Blocks begin and end with the braces. -/
theorem lineages_step (state : State) (token : Token) :
    (state.step token).lineages = state.lineages.take token := by
  unfold Lineages.take
  split
  · next isOpen =>
      obtain ⟨header, opened, -⟩ := State.step_openBrace isOpen state
      rw [opened]
      exact Lineages.fill_nil _
  · next isClose =>
      have quiet := State.quiet_endSource state
      rw [State.step_of_closeBrace isClose, ← quiet.lineages]
      generalize state.endSource = settled
      unfold State.closeBlock State.lineages
      cases blocks : settled.blocks with
      | nil =>
          change lineagesOf settled.blocks settled.nodes = (lineagesOf [] settled.nodes).leave
          rw [blocks]
          rfl
      | cons block outer => exact lineagesOf_toNode block outer settled.nodes token.span
  · next noOpen noClose =>
      by_cases isInvalid : token.kind = .invalid
      · obtain ⟨pre, added⟩ := State.step_invalid isInvalid state
        rw [added]
        rfl
      · exact (State.quiet_step noOpen noClose isInvalid state).lineages

theorem lineages_foldl (state : State) (tokens : List Token) :
    (tokens.foldl State.step state).lineages = tokens.foldl Lineages.take state.lineages := by
  induction tokens generalizing state with
  | nil => rfl
  | cons token rest inductionHypothesis =>
      rw [List.foldl_cons, List.foldl_cons, inductionHypothesis, lineages_step]

/-- At the end of the text all blocks that have begun are there. -/
theorem lineages_closeAll
    (finish : Span)
    (blocks : List OpenBlock)
    (nodes : List Node)
    (faults : List Fault) :
    Node.lineages 0 [] (State.closeAll finish blocks nodes faults).1 =
      (lineagesOf blocks nodes).found := by
  induction blocks generalizing nodes faults with
  | nil => exact (List.nil_append _).symm
  | cons block outer inductionHypothesis =>
      rw [State.closeAll, inductionHypothesis, lineagesOf_toNode]
      rfl

/-- The blocks of a parsed text are those that its braces open. -/
theorem lineages_parse (source : Text) :
    Node.lineages 0 [] (parse source).sheet.nodes =
      (Lineages.ofTokens (Lexer.tokens .css source)).found := by
  have taken : (run source).lineages = Lineages.ofTokens (Lexer.tokens .css source) := by
    unfold run
    rw [(State.quiet_endSource _).lineages, lineages_foldl]
    rfl
  rw [← taken]
  exact lineages_closeAll _ _ _ _

end Parser

/-! ## Faults -/

/-- Whether a fault is that of a token that does not end. -/
def FaultKind.isLexical : FaultKind → Bool
  | .unclosedComment | .unclosedString => true
  | _ => false

/-- The fault of a token that does not end. -/
def Token.invalidFault (token : Token) : Fault :=
  ⟨if ['/', '*'].isPrefixOf token.text then .unclosedComment else .unclosedString, token.span⟩

/-- The fault of a closing brace without an open one. -/
def Token.strayFault (token : Token) : Fault :=
  ⟨.unexpectedCloseBrace, token.span⟩

namespace Parser

/-- The faults after some tokens, unknown words aside. -/
structure Blames (tokens : List Token) (state : State) : Prop where
  stray : (state.faults.filter (·.kind = .unexpectedCloseBrace)).reverse =
    (Braces.ofTokens tokens).stray.map Token.strayFault
  lexical : (state.faults.filter (·.kind.isLexical)).reverse =
    (tokens.filter (·.kind = .invalid)).map Token.invalidFault
  unclosed : state.faults.filter (·.kind = .unclosedBlock) = []

theorem AddsUnknown.filter_faults
    {before after : State}
    (adds : AddsUnknown before after)
    (test : Fault → Bool)
    (others : ∀ fault word, fault.kind = .unknownWord word → test fault = false) :
    after.faults.filter test = before.faults.filter test := by
  obtain ⟨unknown, faults, areUnknown⟩ := adds
  have nothing : unknown.filter test = [] := by
    refine List.filter_eq_nil_iff.mpr fun fault present => ?_
    obtain ⟨word, kind⟩ := areUnknown fault present
    simp [others fault word kind]
  rw [faults, List.filter_append, nothing, List.nil_append]

/-- Unknown words are no matter here. -/
theorem Blames.unknown
    {tokens : List Token}
    {before after : State}
    (blames : Blames tokens before)
    (adds : AddsUnknown before after) :
    Blames tokens after where
  stray := by
    rw [adds.filter_faults _ fun fault word kind => by simp [kind]]
    exact blames.stray
  lexical := by
    rw [adds.filter_faults _ fun fault word kind => by simp [kind, FaultKind.isLexical]]
    exact blames.lexical
  unclosed := by
    rw [adds.filter_faults _ fun fault word kind => by simp [kind]]
    exact blames.unclosed

/-- A token that ends and has a partner, or needs none, is no fault. -/
theorem Blames.faultless
    {tokens : List Token}
    {token : Token}
    {before after : State}
    (blames : Blames tokens before)
    (same : after.faults = before.faults)
    (stray : ((Braces.ofTokens tokens).take token).stray = (Braces.ofTokens tokens).stray)
    (valid : token.kind ≠ .invalid) :
    Blames (tokens ++ [token]) after where
  stray := by
    rw [same, Braces.ofTokens_concat, stray]
    exact blames.stray
  lexical := by
    rw [same, List.filter_append, List.filter_cons_of_neg (by simpa using valid), List.filter_nil,
      List.append_nil]
    exact blames.lexical
  unclosed := same ▸ blames.unclosed

/-- A closing brace without an open one is a fault. -/
theorem Blames.addStray
    {tokens : List Token}
    {token : Token}
    {state : State}
    (blames : Blames tokens state)
    (isClose : token.kind = .closeBrace)
    (outside : (Braces.ofTokens tokens).opened = []) :
    Blames (tokens ++ [token]) (state.addFault .unexpectedCloseBrace token.span) where
  stray := by
    have stray : ((Braces.ofTokens tokens).take token).stray =
        (Braces.ofTokens tokens).stray ++ [token] := by
      unfold Braces.take
      rw [isClose, outside]
    rw [Braces.ofTokens_concat, stray, List.map_append, ← blames.stray, State.addFault,
      List.filter_cons_of_pos rfl, List.reverse_cons]
    rfl
  lexical := by
    rw [List.filter_append, List.filter_cons_of_neg (by simp [isClose]), List.filter_nil,
      List.append_nil, State.addFault, List.filter_cons_of_neg (by simp [FaultKind.isLexical])]
    exact blames.lexical
  unclosed := by
    rw [State.addFault, List.filter_cons_of_neg (by simp)]
    exact blames.unclosed

/-- A token that does not end is a fault. -/
theorem Blames.addInvalid
    {tokens : List Token}
    {token : Token}
    {state : State}
    (blames : Blames tokens state)
    (isInvalid : token.kind = .invalid)
    (spelled : ['/', '*'].isPrefixOf token.text = true ↔ token.text.head? = some '/')
    (pre : Option Prelude) :
    Blames (tokens ++ [token]) { state.addInvalid token with pre } := by
  have faults : (state.addInvalid token).faults = token.invalidFault :: state.faults := by
    unfold State.addInvalid State.addFault Token.invalidFault
    simp only [spelled]
  have kind : token.invalidFault.kind.isLexical = true := by
    unfold Token.invalidFault
    simp only
    split <;> rfl
  have noStray : ((Braces.ofTokens tokens).take token).stray =
      (Braces.ofTokens tokens).stray := by
    unfold Braces.take
    rw [isInvalid]
  refine ⟨?_, ?_, ?_⟩
  · rw [faults, List.filter_cons_of_neg (by intro stray; simp_all [FaultKind.isLexical]),
      Braces.ofTokens_concat, noStray]
    exact blames.stray
  · have kept : (token.invalidFault :: state.faults).filter (·.kind.isLexical) =
        token.invalidFault :: state.faults.filter (·.kind.isLexical) :=
      List.filter_cons_of_pos kind
    rw [faults, kept, List.reverse_cons, blames.lexical, List.filter_append,
      List.filter_cons_of_pos (by simp [isInvalid]), List.map_append]
    rfl
  · rw [faults, List.filter_cons_of_neg (by intro unclosed; simp_all [FaultKind.isLexical])]
    exact blames.unclosed

/-- As many blocks are open as braces. -/
theorem length_blocks
    {tokens : List Token}
    {state : State}
    (taken : state.lineages = Lineages.ofTokens tokens) :
    state.blocks.length = (Braces.ofTokens tokens).opened.length := by
  have above := congrArg List.length (Lineages.numbers_ofTokens tokens).above
  rw [List.length_map, List.length_map, ← taken] at above
  rw [← above]
  exact (length_above_lineagesOf state.blocks state.nodes).symm

/-- Each token adds the fault that it is. -/
theorem Blames.step
    {tokens : List Token}
    {token : Token}
    {state : State}
    (blames : Blames tokens state)
    (taken : state.lineages = Lineages.ofTokens tokens)
    (spelled : token.kind = .invalid →
      (['/', '*'].isPrefixOf token.text = true ↔ token.text.head? = some '/')) :
    Blames (tokens ++ [token]) (state.step token) := by
  have depth := length_blocks taken
  cases kind : token.kind
  case openBrace =>
    obtain ⟨header, opened, -⟩ := State.step_openBrace kind state
    rw [opened]
    exact blames.faultless rfl (by unfold Braces.take; rw [kind]) (by rw [kind]; exact nofun)
  case closeBrace =>
    have quiet := State.quiet_endSource state
    have settledBlames := blames.unknown quiet.faults
    rw [← quiet.blocks] at depth
    rw [State.step_of_closeBrace kind]
    generalize state.endSource = settled at depth settledBlames
    cases opened : (Braces.ofTokens tokens).opened with
    | nil =>
        have outside : settled.blocks.isEmpty = true := by
          rw [List.isEmpty_iff, ← List.length_eq_zero_iff, depth, opened]
          rfl
        rw [if_pos outside]
        exact settledBlames.addStray kind opened
    | cons top outer =>
        have inside : settled.blocks.isEmpty = false := by
          cases blocks : settled.blocks with
          | nil => simp [blocks, opened] at depth
          | cons block others => rfl
        rw [if_neg (by simp [inside])]
        refine settledBlames.faultless ?_ ?_ (by rw [kind]; exact nofun)
        · unfold State.closeBlock
          split <;> rfl
        · unfold Braces.take
          rw [kind, opened]
  case invalid =>
    obtain ⟨pre, added⟩ := State.step_invalid kind state
    rw [added]
    exact blames.addInvalid kind (spelled kind) pre
  -- No other token is at fault by itself; it may end a statement that is.
  all_goals
    have quiet : Quiet state (state.step token) :=
      State.quiet_step (by simp [kind]) (by simp [kind]) (by simp [kind]) state
    refine (blames.faultless rfl ?_ (by simp [kind])).unknown quiet.faults
    unfold Braces.take
    rw [kind]

/-- Taking tokens adds the faults that they are. -/
theorem Blames.foldl
    {tokens rest : List Token}
    {state : State}
    (blames : Blames tokens state)
    (taken : state.lineages = Lineages.ofTokens tokens)
    (spelled : ∀ token ∈ rest, token.kind = .invalid →
      (['/', '*'].isPrefixOf token.text = true ↔ token.text.head? = some '/')) :
    Blames (tokens ++ rest) (rest.foldl State.step state) := by
  induction rest generalizing tokens state with
  | nil =>
      rw [List.append_nil]
      exact blames
  | cons token rest inductionHypothesis =>
      rw [List.append_cons]
      refine inductionHypothesis (blames.step taken (spelled token List.mem_cons_self)) ?_
        fun other present => spelled other (List.mem_cons_of_mem token present)
      rw [lineages_step, taken, Lineages.ofTokens_concat]

/-- Everything that a text has taken is to blame. -/
theorem blames_run (source : Text) :
    Blames (Lexer.tokens .css source) (run source) ∧
      (run source).lineages = Lineages.ofTokens (Lexer.tokens .css source) := by
  have nothing : Blames [] State.start := ⟨rfl, rfl, rfl⟩
  have taken : Blames (Lexer.tokens .css source) _ := nothing.foldl rfl fun token present =>
    Lexer.isPrefixOf_of_mem_lexemes _ (Lexeme.mem_of_mem_place present)
  have quiet := State.quiet_endSource
    ((Lexer.tokens .css source).foldl State.step State.start)
  refine ⟨taken.unknown quiet.faults, ?_⟩
  exact quiet.lineages.trans (lineages_foldl State.start _)

/-! ## Whole texts -/

/-- Blocks stand at the open braces among some tokens: they are matched in order, and a
block is below another one exactly if the brace of that one encloses its own. -/
def StandAtBraces (tokens : List Token) (blocks : List Node) : Prop :=
  let braces := tokens.filter Token.isOpen
  ∃ matching : Fin braces.length ≃o Fin blocks.length, ∀ outer inner,
    blocks[matching inner] ∈ Node.preorderAll blocks[matching outer].children ↔
      Braces.Encloses tokens braces[outer] braces[inner]

/-- What parsing recovers of a text. -/
structure Recovers (source : Text) : Prop where
  /-- All tokens are taken, and they are all of the text. -/
  consumes :
    run source = ((Lexer.tokens .css source).foldl State.step State.start).endSource ∧
      Token.join (Lexer.tokens .css source) = source
  /-- The nodes with blocks, in document order, stand at the open braces. -/
  blocks :
    StandAtBraces (Lexer.tokens .css source)
      ((parse source).sheet.descendants.filter Node.hasBlock)
  /-- The unexpected closing braces are those without an open one. -/
  stray :
    (parse source).faults.filter (·.kind = .unexpectedCloseBrace) =
      (Braces.ofTokens (Lexer.tokens .css source)).stray.map Token.strayFault
  /-- As many blocks are unclosed as there are open braces without a closing one. -/
  unclosed :
    ((parse source).faults.filter (·.kind = .unclosedBlock)).length =
      (Braces.ofTokens (Lexer.tokens .css source)).opened.length
  /-- Each token that does not end is a fault at its own place. -/
  lexical :
    (parse source).faults.filter (·.kind.isLexical) =
      ((Lexer.tokens .css source).filter (·.kind = .invalid)).map Token.invalidFault

/-- The nodes of a parsed text are different. -/
theorem nodup_preorderAll_parse (source : Text) :
    (Node.preorderAll (parse source).sheet.nodes).Nodup := by
  have ordered := (ascend_parse source).ordered
  rw [Stylesheet.descendants_eq, List.pairwise_map] at ordered
  refine ordered.imp ?_
  rintro earlier later before rfl
  exact Nat.lt_irrefl _ before

theorem filter_faults_parse
    (source : Text)
    (test : Fault → Bool)
    (others : ∀ span, test ⟨.unclosedBlock, span⟩ = false) :
    (parse source).faults.filter test = ((run source).faults.filter test).reverse := by
  have nothing : ((run source).blocks.map
      fun block => (⟨.unclosedBlock, block.header.span⟩ : Fault)).filter test = [] := by
    refine List.filter_eq_nil_iff.mpr fun fault present => ?_
    obtain ⟨block, -, rfl⟩ := List.mem_map.mp present
    simp [others]
  rw [faults_parse, List.filter_append, nothing, List.append_nil, List.filter_reverse]

/-- Whatever a text is, parsing recovers the blocks between its braces. -/
theorem recovers (source : Text) : Recovers source := by
  obtain ⟨blames, taken⟩ := blames_run source
  refine ⟨⟨rfl, Lexer.join_tokens .css source⟩, ?_, ?_, ?_, ?_⟩
  · have blocks := lineages_parse source
    have length : ((Lexer.tokens .css source).filter Token.isOpen).length =
        ((Node.preorderAll (parse source).sheet.nodes).filter Node.hasBlock).length := by
      rw [← (Lineages.numbers_ofTokens _).found, ← blocks, Node.length_lineages]
    rw [Stylesheet.descendants_eq]
    refine ⟨Fin.castOrderIso length, fun outer inner => ?_⟩
    have below := Node.mem_lineages_iff (nodup_preorderAll_parse source)
      (Nat.lt_of_lt_of_eq outer.isLt length) (Nat.lt_of_lt_of_eq inner.isLt length)
    rw [blocks, Lineages.mem_found_iff_encloses (Lexer.nodup_tokens .css source) outer.isLt
      inner.isLt] at below
    exact below.symm
  · rw [filter_faults_parse source _ fun span => by simp]
    exact blames.stray
  · have faults : (parse source).faults.filter (·.kind = .unclosedBlock) =
        (run source).blocks.map fun block => ⟨.unclosedBlock, block.header.span⟩ := by
      rw [faults_parse, List.filter_append, List.filter_reverse, blames.unclosed,
        List.reverse_nil, List.nil_append]
      refine List.filter_eq_self.mpr fun fault present => ?_
      obtain ⟨block, -, rfl⟩ := List.mem_map.mp present
      rfl
    rw [faults, List.length_map, length_blocks taken]
  · rw [filter_faults_parse source _ fun span => by simp [FaultKind.isLexical]]
    exact blames.lexical

end Parser
end StyleTypings
