import StyleTypings.Proofs.Stylesheet.Parsing

/-!
# How long selectors are

The selectors of a parsed text are cut from it, each byte at most once. While
tokens are taken, the selectors found, those of the open blocks and the prelude
being read grow by at most the token, so all selectors together are no longer
than the text.
-/

namespace StyleTypings

namespace Node

mutual

/-- Byte size of the selectors of a node and of everything below it. -/
def selectorSize : Node → Nat
  | .rule selector _ _ nodes => selector.byteSize + selectorSizeAll nodes
  | .atBlock _ _ _ _ nodes => selectorSizeAll nodes
  | _ => 0

/-- Byte size of the selectors of a forest. -/
def selectorSizeAll : List Node → Nat
  | [] => 0
  | node :: rest => node.selectorSize + selectorSizeAll rest

end

theorem selectorSizeAll_append (front back : List Node) :
    selectorSizeAll (front ++ back) = selectorSizeAll front + selectorSizeAll back := by
  induction front with
  | nil => simp [selectorSizeAll]
  | cons node rest inductionHypothesis =>
      rw [List.cons_append, selectorSizeAll, selectorSizeAll, inductionHypothesis,
        Nat.add_assoc]

@[simp] theorem selectorSizeAll_reverse (nodes : List Node) :
    selectorSizeAll nodes.reverse = selectorSizeAll nodes := by
  induction nodes with
  | nil => rfl
  | cons node rest inductionHypothesis =>
      rw [List.reverse_cons, selectorSizeAll_append, inductionHypothesis, selectorSizeAll,
        selectorSizeAll, selectorSizeAll]
      omega

end Node

namespace Parser

/-- Byte size of some tokens. -/
def tokensSize : List Token → Nat
  | [] => 0
  | token :: rest => token.text.byteSize + tokensSize rest

theorem byteSize_join (tokens : List Token) :
    (Token.join tokens).byteSize = tokensSize tokens := by
  induction tokens with
  | nil => rfl
  | cons token rest inductionHypothesis =>
      rw [tokensSize, ← inductionHypothesis]
      exact Text.byteSize_append _ _

theorem tokensSize_append (front back : List Token) :
    tokensSize (front ++ back) = tokensSize front + tokensSize back := by
  rw [← byteSize_join, ← byteSize_join, ← byteSize_join, ← Text.byteSize_append]
  exact congrArg Text.byteSize List.flatMap_append

theorem tokensSize_reverse (tokens : List Token) :
    tokensSize tokens.reverse = tokensSize tokens := by
  induction tokens with
  | nil => rfl
  | cons token rest inductionHypothesis =>
      rw [List.reverse_cons, tokensSize_append, inductionHypothesis, tokensSize, tokensSize,
        tokensSize]
      omega

/-- Tokens left after dropping some have no larger size. -/
theorem tokensSize_le_of_suffix
    {left tokens : List Token}
    (dropped : left <:+ tokens) :
    tokensSize left ≤ tokensSize tokens := by
  obtain ⟨front, rfl⟩ := dropped
  rw [tokensSize_append]
  exact Nat.le_add_left _ _

/-- The text of a prelude is made from its tokens. -/
theorem Prelude.byteSize_text_le (pre : Prelude) :
    pre.text.byteSize ≤ tokensSize pre.reversed := by
  unfold Prelude.text Prelude.content
  rw [byteSize_join]
  apply Nat.le_trans (tokensSize_le_of_suffix (List.dropWhile_suffix _))
  rw [tokensSize_reverse]
  exact tokensSize_le_of_suffix (List.dropWhile_suffix _)

/-- Byte size of the selector of a header. -/
def Header.selectorSize : Header → Nat
  | .selector text _ => text.byteSize
  | .atRule _ _ _ => 0

theorem selectorSize_toNode (header : Header) (nodes : List Node) (close : Span) :
    (header.toNode nodes close).selectorSize =
      header.selectorSize + Node.selectorSizeAll nodes := by
  cases header with
  | selector text span => rfl
  | atRule keyword params paramsSpan => exact (Nat.zero_add _).symm

/-- Byte size of the selectors of open blocks and of the nodes before them. -/
def blocksSize : List OpenBlock → Nat
  | [] => 0
  | block :: outer =>
      block.header.selectorSize + Node.selectorSizeAll block.before + blocksSize outer

/-- Byte size of the selectors found so far. -/
def State.found (state : State) : Nat :=
  Node.selectorSizeAll state.nodes + blocksSize state.blocks

/-- Byte size of the prelude being read. -/
def State.pending (state : State) : Nat :=
  match state.pre with
  | none => 0
  | some pre => tokensSize pre.reversed

/-- The header of a prelude is made from its tokens. -/
theorem selectorSize_toHeader_le (pre : Prelude) (brace : Token) :
    (pre.toHeader brace).selectorSize ≤ tokensSize pre.reversed := by
  unfold Prelude.toHeader
  cases pre.keyword with
  | some keyword => exact Nat.zero_le _
  | none => exact pre.byteSize_text_le

theorem found_openBlock (state : State) (header : Header) :
    (state.openBlock header).found = state.found + header.selectorSize := by
  simp only [State.found, State.openBlock, blocksSize, Node.selectorSizeAll]
  omega

@[simp] theorem pending_openBlock (state : State) (header : Header) :
    (state.openBlock header).pending = 0 := rfl

theorem found_closeBlock (state : State) (close : Span) :
    (state.closeBlock close).found = state.found := by
  rcases state with ⟨blocks, nodes, pre, faults⟩
  cases blocks with
  | nil => rfl
  | cons block outer =>
      simp only [State.found, State.closeBlock, blocksSize, Node.selectorSizeAll,
        selectorSize_toNode, Node.selectorSizeAll_reverse]
      omega

@[simp] theorem pending_closeBlock (state : State) (close : Span) :
    (state.closeBlock close).pending = state.pending := by
  rcases state with ⟨blocks, nodes, pre, faults⟩
  cases blocks <;> rfl

/-- A statement has no selector. -/
theorem found_endStatement
    (state : State)
    (pre : Prelude)
    (semicolon : Option Span) :
    (state.endStatement pre semicolon).found = state.found ∧
      (state.endStatement pre semicolon).pending = 0 := by
  unfold State.endStatement
  cases pre.keyword with
  | some keyword => exact ⟨congrArg (· + _) (Nat.zero_add _), rfl⟩
  | none =>
      simp only
      split
      · exact ⟨rfl, rfl⟩
      · split
        · exact ⟨congrArg (· + _) (Nat.zero_add _), rfl⟩
        · exact ⟨rfl, rfl⟩

theorem tokensSize_push (pre : Prelude) (token : Token) :
    tokensSize (pre.push token).reversed =
      token.text.byteSize + tokensSize pre.reversed := rfl

theorem pending_of_outside {state : State} (outside : state.pre = none) : state.pending = 0 := by
  unfold State.pending
  rw [outside]

theorem pending_of_inside
    {state : State}
    {pre : Prelude}
    (inside : state.pre = some pre) :
    state.pending = tokensSize pre.reversed := by
  unfold State.pending
  rw [inside]

/-- Ending what is being read adds no selector. -/
theorem found_endSource (state : State) :
    state.endSource.found = state.found ∧ state.endSource.pending = 0 := by
  cases before : state.pre with
  | none =>
      rw [State.endSource_of_outside before]
      exact ⟨rfl, pending_of_outside before⟩
  | some pre =>
      rw [State.endSource_of_inside before]
      exact found_endStatement state pre none

/-- A token adds at most itself. -/
theorem size_step (state : State) (token : Token) :
    (state.step token).found + (state.step token).pending ≤
      state.found + state.pending + token.text.byteSize := by
  obtain ⟨ended, nothing⟩ := found_endSource state
  have pushed {pre : Prelude} (inside : state.pre = some pre) :
      state.found + tokensSize (pre.push token).reversed ≤
        state.found + state.pending + token.text.byteSize := by
    rw [tokensSize_push, pending_of_inside inside]
    omega
  generalize taken : state.step token = after
  cases State.steps_iff.mpr taken with
  | skip => omega
  | comment =>
      have kept : (state.addNode (.comment token.text token.span)).found = state.found :=
        congrArg (· + _) (Nat.zero_add _)
      change _ + state.pending ≤ _
      omega
  | keyword =>
      change state.found + 0 ≤ _
      omega
  | begins =>
      change state.found + (token.text.byteSize + 0) ≤ _
      omega
  | continues inside | invalidInside inside => exact pushed inside
  | bareBlock =>
      have empty : (Header.selector [] (.empty token.start)).selectorSize = 0 := rfl
      rw [found_openBlock, pending_openBlock]
      omega
  | @block pre inside =>
      have header := selectorSize_toHeader_le pre token
      rw [found_openBlock, pending_openBlock, pending_of_inside inside]
      omega
  | close =>
      rw [found_closeBlock, pending_closeBlock]
      omega
  | stray =>
      change state.endSource.found + state.endSource.pending ≤ _
      omega
  | @statement pre =>
      obtain ⟨ended, closed⟩ := found_endStatement state pre (some token.span)
      omega
  | invalidOutside =>
      change state.found + state.pending ≤ _
      omega

theorem size_foldl (tokens : List Token) (state : State) :
    (tokens.foldl State.step state).found + (tokens.foldl State.step state).pending ≤
      state.found + state.pending + tokensSize tokens := by
  induction tokens generalizing state with
  | nil => exact Nat.le_refl _
  | cons token rest inductionHypothesis =>
      have first := size_step state token
      have later := inductionHypothesis (state.step token)
      have whole : tokensSize (token :: rest) = token.text.byteSize + tokensSize rest := rfl
      rw [List.foldl_cons]
      omega

/-- The tokens of a text are as long as the text. -/
theorem tokensSize_place (offset : Nat) (lexemes : List Lexeme) :
    tokensSize (Lexeme.place offset lexemes) =
      Text.byteSize (lexemes.flatMap Lexeme.text) := by
  induction lexemes generalizing offset with
  | nil => rfl
  | cons lexeme rest inductionHypothesis =>
      have later := inductionHypothesis (offset + lexeme.text.byteSize)
      rw [List.flatMap_cons, Text.byteSize_append, ← later]
      rfl

theorem found_run_le (text : Text) : (run text).found ≤ text.byteSize := by
  have taken := size_foldl (Lexer.tokens .css text) State.start
  have size : tokensSize (Lexer.tokens .css text) = text.byteSize := by
    unfold Lexer.tokens
    rw [tokensSize_place, Lexer.flatMap_text_lexemes]
  have nothing : State.start.found + State.start.pending = 0 := rfl
  have ended := found_endSource ((Lexer.tokens .css text).foldl State.step State.start)
  unfold run
  omega

/-- Closing blocks at the end keeps the selectors found. -/
theorem selectorSizeAll_closeAll
    (finish : Span)
    (blocks : List OpenBlock)
    (nodes : List Node)
    (faults : List Fault) :
    Node.selectorSizeAll (State.closeAll finish blocks nodes faults).1 =
      Node.selectorSizeAll nodes + blocksSize blocks := by
  induction blocks generalizing nodes faults with
  | nil => exact Node.selectorSizeAll_reverse nodes
  | cons block outer inductionHypothesis =>
      rw [State.closeAll, inductionHypothesis, Node.selectorSizeAll, selectorSize_toNode,
        Node.selectorSizeAll_reverse, blocksSize]
      omega

/-- All selectors of a parsed text together are no longer than the text. -/
theorem selectorSizeAll_parse_le (text : Text) :
    Node.selectorSizeAll (parse text).sheet.nodes ≤ text.byteSize := by
  have found := found_run_le text
  unfold parse
  simp only [selectorSizeAll_closeAll]
  exact found

end Parser
end StyleTypings
