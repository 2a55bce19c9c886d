import StyleTypings.Proofs.Stylesheet.Dividing
import StyleTypings.Proofs.Stylesheet.Recovery

/-!
# How far nodes extend

The spans of a parsed text form an ordered tree, whatever faults the text has: nodes begin
in document order, children lie inside their parents and siblings one behind the other. A
rule begins with its selector, and a block ends with the brace that closes its own, or with
the text if no brace does.

Which brace closes a block is said by the stack of braces alone. To compare the two, the
closed blocks of a state are numbered in the order in which they began, as the braces are.
-/

namespace StyleTypings

namespace Node.AllFit

variable {text : Text} {low high : Nat} {nodes : List Node} {node : Node}

/-- Each node of a forest that fits fits by itself. -/
theorem fits_of_mem (fit : AllFit text low high nodes) (present : node ∈ nodes) :
    node.Fits text low high := by
  induction nodes generalizing low with
  | nil => exact absurd present List.not_mem_nil
  | cons first rest inductionHypothesis =>
      rcases List.mem_cons.mp present with rfl | later
      · exact fit.1
      · have lower := fit.1.span.low_le
        have inside := fit.1.span.start_lt_stop
        exact (inductionHypothesis fit.2 later).mono (by omega) (Nat.le_refl _)

/-- So does each node below one of them. -/
theorem fits_of_mem_preorderAll
    (fit : AllFit text low high nodes)
    (present : node ∈ preorderAll nodes) :
    node.Fits text low high := by
  induction nodes using forestInduction generalizing low high with
  | nil => exact absurd present List.not_mem_nil
  | leaf first rest leaf inductionHypothesis =>
      rw [preorderAll_leaf leaf] at present
      have span := fit.1.span
      have inside := span.start_lt_stop
      have lower := span.low_le
      rcases List.mem_cons.mp present with rfl | behind
      · exact fit.1
      · exact (inductionHypothesis fit.2 behind).mono (by omega) (Nat.le_refl _)
  | block first rest hasBlock childrenHypothesis restHypothesis =>
      rw [preorderAll_cons] at present
      obtain ⟨span, children⟩ := (fits_iff first).mp fit.1
      have inside := span.start_lt_stop
      have lower := span.low_le
      rcases List.mem_cons.mp present with rfl | later
      · exact fit.1
      · rcases List.mem_append.mp later with below | behind
        · exact (childrenHypothesis children below).mono (by omega) span.stop_le
        · exact (restHypothesis fit.2 behind).mono (by omega) (Nat.le_refl _)

/-- The nodes of a forest that fits lie one behind the other. -/
theorem pairwise (fit : AllFit text low high nodes) :
    nodes.Pairwise fun earlier later => earlier.span.stop ≤ later.span.start := by
  induction nodes generalizing low with
  | nil => exact .nil
  | cons first rest inductionHypothesis =>
      exact List.pairwise_cons.mpr
        ⟨fun later present => (fits_of_mem fit.2 present).span.low_le,
          inductionHypothesis fit.2⟩

end Node.AllFit

namespace Braces

/-- A closing brace closes an open one: that one is on top of the stack where it stands. -/
def Closes (tokens : List Token) (opening closing : Token) : Prop :=
  ∃ front back, tokens = front ++ closing :: back ∧ closing.kind = .closeBrace ∧
    (ofTokens front).opened.head? = some opening

end Braces

namespace Parser

/-! ## Selectors -/

/-- The text of a selector is that of its bytes. -/
def Header.IsCut (source : Text) : Header → Prop
  | .selector text span => span.slice source = text
  | .atRule _ _ _ => True

end Parser

/-- A rule begins with its selector, whose text is that of its bytes. -/
def Node.IsCut (source : Text) : Node → Prop
  | .rule selector selectorSpan span _ =>
      selectorSpan.slice source = selector ∧ span.start = selectorSpan.start
  | _ => True

namespace Parser

theorem Header.IsCut.toNode
    {source : Text}
    {header : Header}
    (cut : header.IsCut source)
    (nodes : List Node)
    (close : Span) :
    (header.toNode nodes close).IsCut source := by
  cases header with
  | selector text span => exact ⟨cut, rfl⟩
  | atRule keyword params paramsSpan => exact trivial

theorem isCut_empty (source : Text) (offset : Nat) :
    (Header.selector [] (.empty offset)).IsCut source :=
  Span.slice_of_stop_le (Nat.le_refl offset) source

/-- A prelude of tokens that stand together in a text becomes a header of that text. -/
theorem Prelude.isCut_toHeader
    {source : Text}
    {taken rest : List Token}
    {pre : Prelude}
    (whole : Lexer.tokens .css source = taken ++ rest)
    (ends : pre.reversed.reverse <:+ taken)
    (brace : Token) :
    (pre.toHeader brace).IsCut source := by
  obtain ⟨before, split⟩ := ends
  obtain ⟨lead, trail, around, -, -⟩ := pre.exists_around_content
  unfold toHeader text span?
  cases pre.keyword with
  | some keyword => exact trivial
  | none =>
      cases content : pre.content with
      | nil => exact isCut_empty source brace.start
      | cons first others =>
          have split : Lexer.tokens .css source =
              (before ++ lead) ++ (first :: others ++ (trail ++ rest)) := by
            rw [whole, ← split, around, content]
            simp
          exact Lexer.slice_of_tokens_eq_append split

/-! ## Closed blocks -/

/-- The closed blocks of a state, numbered in the order in which they began. -/
def closedOf : List OpenBlock → List Node → List Node.Entry
  | [], nodes => Node.entriesAll 0 [] nodes.reverse
  | block :: outer, nodes =>
      let around := (lineagesOf outer block.before).enter
      closedOf outer block.before ++
        Node.entriesAll around.found.length around.above nodes.reverse

/-- Nodes found behind others in the innermost block go on with their numbers. -/
theorem closedOf_append (blocks : List OpenBlock) (more nodes : List Node) :
    closedOf blocks (more ++ nodes) =
      closedOf blocks nodes ++
        Node.entriesAll (lineagesOf blocks nodes).found.length (lineagesOf blocks nodes).above
          more.reverse := by
  have length (lineages : Lineages) :
      (lineages.fill nodes.reverse).found.length = lineages.found.length +
        (Node.entriesAll lineages.found.length lineages.above nodes.reverse).length := by
    unfold Lineages.fill Node.lineages
    rw [List.length_append, List.length_map]
  cases blocks with
  | nil =>
      rw [closedOf, closedOf, lineagesOf, length, List.reverse_append, Node.entriesAll_append]
      rfl
  | cons block outer =>
      rw [closedOf, closedOf, lineagesOf, length, List.reverse_append, Node.entriesAll_append,
        List.append_assoc]
      rfl

theorem closedOf_leaves
    {leaves : List Node}
    (areLeaves : ∀ leaf ∈ leaves, leaf.hasBlock = false)
    (blocks : List OpenBlock)
    (nodes : List Node) :
    closedOf blocks (leaves ++ nodes) = closedOf blocks nodes := by
  rw [closedOf_append, Node.entriesAll_leaves fun leaf present =>
    areLeaves leaf (List.mem_reverse.mp present), List.append_nil]

/-- A block that is closed has the number of the innermost open one, and the others stay. -/
theorem mem_closedOf_toNode
    {block : OpenBlock}
    {outer : List OpenBlock}
    {nodes : List Node}
    {close : Span}
    {entry : Node.Entry}
    (closed : entry ∈ closedOf outer (block.header.toNode nodes.reverse close :: block.before)) :
    entry ∈ closedOf (block :: outer) nodes ∨
      entry.node = block.header.toNode nodes.reverse close ∧
        (lineagesOf (block :: outer) nodes).above.head? = some entry.number := by
  rw [← List.singleton_append, closedOf_append, List.reverse_singleton,
    Node.entriesAll_block (hasBlock_toNode _ _ _), children_toNode, Node.entriesAll,
    List.append_nil] at closed
  rcases List.mem_append.mp closed with before | here
  · exact .inl (List.mem_append_left _ before)
  · rcases List.mem_cons.mp here with rfl | within
    · exact .inr ⟨rfl, rfl⟩
    · refine .inl (List.mem_append_right _ ?_)
      simp only [Lineages.enter, List.length_append, List.length_singleton]
      exact within

/-- A block ends with the closing brace that stands where its number is the innermost one. -/
def EndsAt (taken : List Token) (entry : Node.Entry) : Prop :=
  ∃ front closing back, taken = front ++ closing :: back ∧ closing.kind = .closeBrace ∧
    (Lineages.ofTokens front).above.head? = some entry.number ∧
      entry.node.span.stop = max closing.stop entry.node.span.start

theorem EndsAt.append
    {taken : List Token}
    {entry : Node.Entry}
    (ends : EndsAt taken entry)
    (more : List Token) :
    EndsAt (taken ++ more) entry := by
  obtain ⟨front, closing, back, rfl, isClose, innermost, stops⟩ := ends
  exact ⟨front, closing, back ++ more, by simp, isClose, innermost, stops⟩

/-- The closed blocks end with their closing braces, and all blocks begin with what stands in
the text. -/
structure Formed (source : Text) (taken : List Token) (state : State) : Prop where
  headers : ∀ block ∈ state.blocks, block.header.IsCut source
  closed : ∀ entry ∈ closedOf state.blocks state.nodes,
    EndsAt taken entry ∧ entry.node.IsCut source

namespace Formed

variable {source : Text} {taken rest : List Token} {token : Token} {state after : State}

theorem append (formed : Formed source taken state) (more : List Token) :
    Formed source (taken ++ more) state :=
  ⟨formed.headers, fun entry closed =>
    ⟨(formed.closed entry closed).1.append more, (formed.closed entry closed).2⟩⟩

theorem quiet (formed : Formed source taken state) (quiet : Quiet state after) :
    Formed source taken after := by
  obtain ⟨leaves, nodes, areLeaves⟩ := quiet.nodes
  refine ⟨quiet.blocks ▸ formed.headers, ?_⟩
  rw [quiet.blocks, nodes, closedOf_leaves areLeaves]
  exact formed.closed

theorem openBlock
    {header : Header}
    (formed : Formed source taken state)
    (cut : header.IsCut source) :
    Formed source taken (state.openBlock header) := by
  refine ⟨List.forall_mem_cons.mpr ⟨cut, formed.headers⟩, fun entry closed => ?_⟩
  exact formed.closed entry (by simpa [State.openBlock, closedOf, Node.entriesAll] using closed)

theorem closeBlock
    (formed : Formed source taken state)
    (lineages : state.lineages = Lineages.ofTokens taken)
    (isClose : token.kind = .closeBrace) :
    Formed source (taken ++ [token]) (state.closeBlock token.span) := by
  have before := formed.append [token]
  obtain ⟨blocks, nodes, pre, faults⟩ := state
  cases blocks with
  | nil => exact before
  | cons block outer =>
      obtain ⟨cut, headers⟩ := List.forall_mem_cons.mp formed.headers
      refine ⟨headers, fun entry closed => ?_⟩
      rcases mem_closedOf_toNode closed with earlier | ⟨isNode, innermost⟩
      · exact before.closed entry earlier
      · refine ⟨⟨taken, token, [], rfl, isClose, ?_, ?_⟩, ?_⟩
        · rw [← lineages]
          exact innermost
        · rw [isNode, span_toNode]
          rfl
        · rw [isNode]
          exact cut.toNode _ _

/-- A token opens a block, closes one, or leaves the blocks as they are. -/
theorem step
    (formed : Formed source taken state)
    (whole : Lexer.tokens .css source = taken ++ rest)
    (read : state.read <:+ taken)
    (lineages : state.lineages = Lineages.ofTokens taken)
    (token : Token) :
    Formed source (taken ++ [token]) (state.step token) := by
  cases kind : token.kind
  case openBrace =>
    obtain ⟨header, opened, origin⟩ := State.step_openBrace kind state
    have cut : header.IsCut source := by
      rcases origin with rfl | ⟨pre, isPre, rfl⟩
      · exact isCut_empty source token.start
      · unfold State.read at read
        rw [isPre] at read
        exact pre.isCut_toHeader whole read token
    rw [opened]
    exact (formed.openBlock cut).append [token]
  case closeBrace =>
    have quiet := State.quiet_endSource state
    have later := formed.quiet quiet
    rw [State.step_of_closeBrace kind]
    split
    · exact ⟨(later.append [token]).headers, (later.append [token]).closed⟩
    · exact later.closeBlock (quiet.lineages.trans lineages) kind
  case invalid =>
    obtain ⟨pre, added⟩ := State.step_invalid kind state
    rw [added]
    exact ⟨(formed.append [token]).headers, (formed.append [token]).closed⟩
  all_goals
    exact (formed.quiet (State.quiet_step (by simp [kind]) (by simp [kind]) (by simp [kind])
      state)).append [token]

theorem foldl
    (formed : Formed source taken state)
    (whole : Lexer.tokens .css source = taken ++ rest)
    (read : state.read <:+ taken)
    (lineages : state.lineages = Lineages.ofTokens taken) :
    Formed source (taken ++ rest) (rest.foldl State.step state) := by
  induction rest generalizing taken state with
  | nil =>
      rw [List.append_nil]
      exact formed
  | cons token rest inductionHypothesis =>
      have first := formed.step whole read lineages token
      rw [List.append_cons] at whole ⊢
      have later : (state.step token).read <:+ taken ++ [token] := by
        obtain ⟨passed, rfl⟩ := read
        exact (read_step state token).trans ⟨passed, by rw [List.append_assoc]⟩
      refine inductionHypothesis first whole later ?_
      rw [lineages_step, lineages, Lineages.ofTokens_concat]

end Formed

theorem formed_run (source : Text) :
    Formed source (Lexer.tokens .css source) (run source) := by
  have nothing : Formed source [] State.start := ⟨nofun, nofun⟩
  exact (nothing.foldl rfl List.suffix_rfl rfl).quiet (State.quiet_endSource _)

/-- Of the blocks that are left when all are closed, those that were open end with the text. -/
theorem mem_entriesAll_closeAll
    {finish : Span}
    {blocks : List OpenBlock}
    {nodes : List Node}
    {faults : List Fault}
    {entry : Node.Entry}
    (found : entry ∈ Node.entriesAll 0 [] (State.closeAll finish blocks nodes faults).1) :
    entry ∈ closedOf blocks nodes ∨
      entry.number ∈ (lineagesOf blocks nodes).above ∧
        ∃ block ∈ blocks, ∃ inner, entry.node = block.header.toNode inner finish := by
  induction blocks generalizing nodes faults with
  | nil => exact .inl found
  | cons block outer inductionHypothesis =>
      rw [State.closeAll] at found
      rcases inductionHypothesis found with closed | ⟨isOpen, other, among, inner, isNode⟩
      · rcases mem_closedOf_toNode closed with earlier | ⟨isNode, innermost⟩
        · exact .inl earlier
        · exact .inr ⟨List.mem_of_head? innermost, block, List.mem_cons_self, _, isNode⟩
      · rw [lineagesOf_toNode] at isOpen
        exact .inr ⟨List.mem_of_mem_tail isOpen, other, List.mem_cons_of_mem _ among, inner,
          isNode⟩

/-! ## Whole texts -/

/-- The spans of a style sheet form an ordered tree over a text. -/
structure SpansOrdered (source : Text) (sheet : Stylesheet) : Prop where
  /-- In document order nodes begin one behind the other. -/
  ascending : (sheet.descendants.map (·.span.start)).Pairwise (· < ·)
  /-- Every span covers something of the text, from one character boundary to another. -/
  within : ∀ node ∈ sheet.descendants,
    node.span.start < node.span.stop ∧ node.span.stop ≤ source.byteSize ∧
      source.Boundary node.span.start ∧ source.Boundary node.span.stop
  /-- Children lie inside their parents and begin behind them. -/
  inside : ∀ node ∈ sheet.descendants, ∀ child ∈ node.children,
    node.span.start < child.span.start ∧ child.span.stop ≤ node.span.stop
  /-- Siblings lie one behind the other. -/
  siblings :
    let apart := List.Pairwise fun earlier later : Node => earlier.span.stop ≤ later.span.start
    apart sheet.nodes ∧ ∀ node ∈ sheet.descendants, apart node.children
  /-- A rule begins with its selector, whose text is that of its bytes. -/
  selectors : ∀ selector selectorSpan span nodes,
    .rule selector selectorSpan span nodes ∈ sheet.descendants →
      selectorSpan.slice source = selector ∧ span.start = selectorSpan.start
  /-- The nodes with blocks stand at the open braces, in order, and end with the closing
  braces of these, or with the text if a brace is never closed. -/
  blocks :
    let tokens := Lexer.tokens .css source
    List.Forall₂
      (fun (opening : Token) (node : Node) =>
        (∃ closing, Braces.Closes tokens opening closing ∧ node.span.stop = closing.stop) ∨
          opening ∈ (Braces.ofTokens tokens).opened ∧ node.span.stop = source.byteSize)
      (tokens.filter Token.isOpen) (sheet.descendants.filter Node.hasBlock)

/-- What closes a block closes the brace that has its number. -/
theorem EndsAt.closes
    {tokens : List Token}
    {entry : Node.Entry}
    {opening : Token}
    (ends : EndsAt tokens entry)
    (isOpening : (tokens.filter Token.isOpen)[entry.number]? = some opening) :
    ∃ closing, Braces.Closes tokens opening closing ∧
      entry.node.span.stop = max closing.stop entry.node.span.start := by
  obtain ⟨front, closing, back, rfl, isClose, innermost, stops⟩ := ends
  refine ⟨closing, ⟨front, back, rfl, isClose, ?_⟩, stops⟩
  have heads := congrArg List.head? (Lineages.numbers_ofTokens front).above
  rw [List.head?_map, List.head?_map, innermost] at heads
  obtain ⟨top, isTop, isNumbered⟩ := Option.map_eq_some_iff.mp heads.symm
  have inside := (List.getElem?_eq_some_iff.mp isNumbered.symm).1
  rw [List.filter_append, List.getElem?_append_left inside] at isOpening
  rw [isTop, isNumbered]
  exact isOpening

/-- A block that is never closed begins at a brace that is still open at the end. -/
theorem opened_of_mem_above
    {tokens : List Token}
    {number : Nat}
    {opening : Token}
    (isOpen : number ∈ (Lineages.ofTokens tokens).above)
    (isOpening : (tokens.filter Token.isOpen)[number]? = some opening) :
    opening ∈ (Braces.ofTokens tokens).opened := by
  have listed : some opening ∈ (Braces.ofTokens tokens).opened.map some := by
    rw [← (Lineages.numbers_ofTokens tokens).above, ← isOpening]
    exact List.mem_map_of_mem isOpen
  obtain ⟨token, opened, same⟩ := List.mem_map.mp listed
  exact Option.some.inj same ▸ opened

/-- Each block of a parsed text stands at the open brace of its number and ends where that
is closed. -/
theorem entries_end
    {source : Text}
    {entry : Node.Entry}
    {opening : Token}
    (found : entry ∈ Node.entriesAll 0 [] (parse source).sheet.nodes)
    (isOpening : ((Lexer.tokens .css source).filter Token.isOpen)[entry.number]? =
      some opening) :
    (∃ closing, Braces.Closes (Lexer.tokens .css source) opening closing ∧
        entry.node.span.stop = closing.stop) ∨
      opening ∈ (Braces.ofTokens (Lexer.tokens .css source)).opened ∧
        entry.node.span.stop = source.byteSize := by
  have fits := (allFit_parse source).fits_of_mem_preorderAll (Node.node_of_mem_entriesAll found)
  have wide := fits.span.start_lt_stop
  rcases mem_entriesAll_closeAll found with closed | ⟨isOpen, block, -, inner, isNode⟩
  · obtain ⟨closing, closes, stops⟩ := ((formed_run source).closed entry closed).1.closes isOpening
    exact .inl ⟨closing, closes, by omega⟩
  · -- Closed at the end of the text, a block that covers something ends there.
    have lineages : (lineagesOf (run source).blocks (run source).nodes) =
        Lineages.ofTokens (Lexer.tokens .css source) := (blames_run source).2
    rw [lineages] at isOpen
    refine .inr ⟨opened_of_mem_above isOpen isOpening, ?_⟩
    rw [isNode, span_toNode, Span.stop_through, Span.start_through] at wide
    rw [isNode, span_toNode, Span.stop_through]
    change _ < max source.byteSize _ at wide
    change max source.byteSize _ = _
    omega

/-- As many blocks as open braces. -/
theorem length_blocks_parse (source : Text) :
    ((Lexer.tokens .css source).filter Token.isOpen).length =
      ((Node.preorderAll (parse source).sheet.nodes).filter Node.hasBlock).length := by
  rw [← (Lineages.numbers_ofTokens _).found, ← lineages_parse, Node.length_lineages]

theorem isCut_of_mem_entriesAll
    {source : Text}
    {entry : Node.Entry}
    (found : entry ∈ Node.entriesAll 0 [] (parse source).sheet.nodes) :
    entry.node.IsCut source := by
  have formed := formed_run source
  rcases mem_entriesAll_closeAll found with closed | ⟨-, block, isBlock, inner, isNode⟩
  · exact (formed.closed entry closed).2
  · rw [isNode]
    exact (formed.headers block isBlock).toNode inner _

/-- Whatever a text is, the spans of its nodes form an ordered tree. -/
theorem spansOrdered_parse (source : Text) : SpansOrdered source (parse source).sheet := by
  have fit := allFit_parse source
  have ascending := (ascend_parse source).ordered
  have fits {node : Node} (present : node ∈ (parse source).sheet.descendants) :
      node.span.Fits source 0 source.byteSize ∧
        Node.AllFit source (node.span.start + 1) node.span.stop node.children := by
    rw [Stylesheet.descendants_eq] at present
    exact (Node.fits_iff node).mp (fit.fits_of_mem_preorderAll present)
  refine ⟨ascending, fun node present => ?_, fun node present child isChild => ?_, ?_, ?_, ?_⟩
  · have span := (fits present).1
    exact ⟨span.start_lt_stop, span.stop_le, span.solid.boundary, span.ends⟩
  · have span := ((fits present).2.fits_of_mem isChild).span
    exact ⟨span.low_le, span.stop_le⟩
  · exact ⟨fit.pairwise, fun node present => (fits present).2.pairwise⟩
  · intro selector selectorSpan span nodes present
    rw [Stylesheet.descendants_eq] at present
    have isBlock := List.mem_filter.mpr ⟨present, (rfl : Node.hasBlock (.rule ..) = true)⟩
    rw [← Node.map_node_entriesAll 0 []] at isBlock
    obtain ⟨entry, found, isNode⟩ := List.mem_map.mp isBlock
    have cut := isCut_of_mem_entriesAll found
    rw [isNode] at cut
    exact cut
  · rw [Stylesheet.descendants_eq]
    refine List.forall₂_iff_get.mpr ⟨length_blocks_parse source, fun number isOpen isBlock => ?_⟩
    obtain ⟨entry, found, isNode, isNumber, -⟩ := Node.exists_entry isBlock
    rw [List.get_eq_getElem, List.get_eq_getElem, ← isNode]
    refine entries_end found ?_
    rw [isNumber]
    exact List.getElem?_eq_getElem isOpen

end Parser
end StyleTypings
