import StyleTypings.Proofs.Stylesheet.Parsing

/-!
# Preludes and statements

A prelude begins with a token that is no separator and takes in all tokens up to a
brace or to a semicolon outside parentheses. Whatever the parser has found before,
the tokens of a prelude leave it with just that prelude begun. Ended without a
block, a prelude either is a statement and adds its node, or adds a fault.
-/

namespace StyleTypings

namespace TokenKind

/-- The kinds of token in CSS whose comments and strings all end. -/
def isPlain : TokenKind → Bool
  | .lineComment | .endOfFile | .invalid => false
  | _ => true

end TokenKind

namespace Parser

/-! ## Preludes -/

/-- The nesting of parentheses after some tokens. -/
def nesting (depth : Nat) (tokens : List Token) : Nat :=
  tokens.foldl (fun depth token => token.kind.depthAfter depth) depth

/-- Tokens that a prelude takes in one after the other, given the nesting before
them. -/
def Runs (depth : Nat) : List Token → Prop
  | [] => True
  | token :: rest =>
      token.kind.continuesPrelude depth = true ∧
        Runs (token.kind.depthAfter depth) rest

/-- Tokens that make up a prelude. -/
def IsPrelude : List Token → Prop
  | [] => False
  | first :: rest => first.kind.beginsPrelude = true ∧ Runs 0 (first :: rest)

namespace Prelude

/-- The prelude that tokens make up. -/
def ofTokens : List Token → Prelude
  | [] => ⟨none, [], 0⟩
  | first :: rest =>
      if first.kind = .atKeyword then
        ⟨some first, rest.reverse, nesting 0 rest⟩
      else
        ⟨none, (first :: rest).reverse, nesting 0 (first :: rest)⟩

/-- Pushing tokens puts them in front of those that are there. -/
theorem foldl_push (tokens : List Token) (pre : Prelude) :
    tokens.foldl push pre =
      ⟨pre.keyword, tokens.reverse ++ pre.reversed, nesting pre.depth tokens⟩ := by
  induction tokens generalizing pre with
  | nil => rfl
  | cons token rest inductionHypothesis =>
      rw [List.foldl_cons, inductionHypothesis, List.reverse_cons, List.append_assoc]
      rfl

theorem depth_ofTokens (tokens : List Token) :
    (ofTokens tokens).depth = nesting 0 tokens := by
  cases tokens with
  | nil => rfl
  | cons first rest =>
      rw [ofTokens]
      split
      · next keyword =>
          change nesting 0 rest = nesting (first.kind.depthAfter 0) rest
          rw [keyword]
          rfl
      · rfl

/-- The node that a prelude becomes if no block follows: inside a block or
outside all of them, and with the bytes of the semicolon if there is one. -/
def statement? (pre : Prelude) (nested : Bool) (semicolon : Option Span) : Option Node :=
  match pre.keyword with
  | some keyword =>
      let params := paramsSpan keyword pre
      some <| .atStatement (keywordName keyword) pre.text params
        (keyword.span.through (semicolon.getD params))
  | none =>
      match nested, pre.span?, Text.splitFirst? [':'] pre.text with
      | true, some span, some (property, value) =>
          some (.declaration property.trim value.trim span)
      | _, _, _ => none

end Prelude

namespace State

/-- Whether a block is open. -/
def isNested (state : State) : Bool :=
  !state.blocks.isEmpty

/-- A state with more nodes in the innermost block. -/
def withNodes (state : State) (more : List Node) : State :=
  { state with nodes := more.reverse ++ state.nodes }

@[simp] theorem blocks_withNodes (state : State) (more : List Node) :
    (state.withNodes more).blocks = state.blocks := rfl

@[simp] theorem pre_withNodes (state : State) (more : List Node) :
    (state.withNodes more).pre = state.pre := rfl

@[simp] theorem faults_withNodes (state : State) (more : List Node) :
    (state.withNodes more).faults = state.faults := rfl

@[simp] theorem isNested_withNodes (state : State) (more : List Node) :
    (state.withNodes more).isNested = state.isNested := rfl

@[simp] theorem withNodes_nil (state : State) : state.withNodes [] = state := rfl

theorem withNodes_cons (state : State) (node : Node) (more : List Node) :
    state.withNodes (node :: more) = (state.addNode node).withNodes more := by
  simp [withNodes, addNode]

theorem withNodes_append (state : State) (front back : List Node) :
    state.withNodes (front ++ back) = (state.withNodes front).withNodes back := by
  simp [withNodes]

/-- Ending a prelude adds the statement that it is. -/
theorem endStatement_of_statement?
    {state : State}
    {pre : Prelude}
    {semicolon : Option Span}
    {node : Node}
    (isStatement : pre.statement? state.isNested semicolon = some node) :
    state.endStatement pre semicolon = ({ state with pre := none }).addNode node := by
  unfold Prelude.statement? at isStatement
  unfold endStatement
  cases keyword : pre.keyword with
  | some word =>
      rw [keyword] at isStatement
      obtain rfl := Option.some.inj isStatement
      rfl
  | none =>
      simp only [keyword] at isStatement ⊢
      split at isStatement
      · next nested covered split =>
          obtain rfl := Option.some.inj isStatement
          cases blocks : state.blocks with
          | nil => simp [isNested, blocks] at nested
          | cons block outer => simp only [covered, split]
      · exact absurd isStatement nofun

/-- Ending a prelude that is no statement adds a fault. -/
theorem faults_endStatement_of_statement?
    {state : State}
    {pre : Prelude}
    {semicolon : Option Span}
    (noStatement : pre.statement? state.isNested semicolon = none)
    (covers : pre.keyword = none → pre.span? ≠ none) :
    ∃ fault, (state.endStatement pre semicolon).faults = fault :: state.faults := by
  unfold Prelude.statement? at noStatement
  unfold endStatement
  cases keyword : pre.keyword with
  | some word =>
      rw [keyword] at noStatement
      exact absurd noStatement nofun
  | none =>
      simp only [keyword] at noStatement ⊢
      cases covered : pre.span? with
      | none => exact absurd covered (covers keyword)
      | some span =>
          simp only
          split
          · next nested split =>
              have isNested : state.isNested = true := by simp [State.isNested, nested]
              rw [isNested, covered, split] at noStatement
              exact absurd noStatement nofun
          · exact ⟨_, rfl⟩

/-- A prelude takes in the tokens that it runs over. -/
theorem foldl_of_runs
    {state : State}
    {pre : Prelude}
    {tokens : List Token}
    (inside : state.pre = some pre)
    (runs : Runs pre.depth tokens) :
    tokens.foldl step state = { state with pre := some (tokens.foldl Prelude.push pre) } := by
  induction tokens generalizing state pre with
  | nil =>
      rw [List.foldl_nil, List.foldl_nil, ← inside]
  | cons token rest inductionHypothesis =>
      obtain ⟨continues, later⟩ := runs
      rw [List.foldl_cons, (Steps.continues inside continues).step_eq,
        inductionHypothesis rfl later]
      rfl

/-- Outside every prelude, the tokens of a prelude begin it. -/
theorem foldl_of_isPrelude
    {state : State}
    {tokens : List Token}
    (outside : state.pre = none)
    (isPrelude : IsPrelude tokens) :
    tokens.foldl step state = { state with pre := some (.ofTokens tokens) } := by
  cases tokens with
  | nil => exact isPrelude.elim
  | cons first rest =>
      obtain ⟨begins, -, runs⟩ := isPrelude
      rw [List.foldl_cons]
      by_cases keyword : first.kind = .atKeyword
      · have runs' : Runs 0 rest := by rwa [keyword] at runs
        rw [(Steps.keyword outside keyword).step_eq, foldl_of_runs rfl runs', Prelude.foldl_push,
          Prelude.ofTokens, if_pos keyword, List.append_nil]
      · rw [(Steps.begins outside (.inl begins) keyword).step_eq, foldl_of_runs rfl runs,
          Prelude.foldl_push, Prelude.ofTokens, if_neg keyword, List.reverse_cons]
        rfl

end State

end Parser
end StyleTypings
