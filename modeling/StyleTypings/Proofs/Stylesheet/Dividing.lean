import StyleTypings.Compile.SourceUnit
import StyleTypings.Proofs.Stylesheet.Faultless

/-!
# Dividing a style sheet at its at-rules

The tokens of a style sheet divide at each at-rule outside all blocks into those
before it, its own, and those behind it, which read as the nodes before and behind.
Only behind an at-statement that the end of the text ends there may be trivia that
the at-statement has swallowed.
-/

namespace StyleTypings

/-- Whether a node is an at-statement without a semicolon, which ends with its params. -/
def Node.isUnfinished : Node → Bool
  | .atStatement _ _ params span => span.stop == params.stop
  | _ => false

namespace Parser

/-! ## The content of a prelude -/

/-- The content of a prelude is all of its tokens but the trivia around it. -/
theorem Prelude.exists_around_content (pre : Prelude) :
    ∃ lead trail, pre.reversed.reverse = lead ++ (pre.content ++ trail) ∧
      (∀ token ∈ lead, token.kind.isTrivia = true) ∧
        ∀ token ∈ trail, token.kind.isTrivia = true := by
  let isTrivia := fun token : Token => token.kind.isTrivia
  let kept := (pre.reversed.dropWhile isTrivia).reverse
  refine ⟨kept.takeWhile isTrivia, (pre.reversed.takeWhile isTrivia).reverse, ?_, ?_, ?_⟩
  · have front : kept.takeWhile isTrivia ++ pre.content = kept := List.takeWhile_append_dropWhile
    rw [← List.append_assoc, front, ← List.reverse_append, List.takeWhile_append_dropWhile]
  · exact fun token present => List.all_eq_true.mp List.all_takeWhile token present
  · exact fun token present =>
      List.all_eq_true.mp List.all_takeWhile token (List.mem_reverse.mp present)

/-! ## The bytes of at-rules -/

/-- A node reaches from the first of its tokens to the last. -/
def Spans (tokens : List Token) (node : Node) : Prop :=
  ∃ first rest, tokens = first :: rest ∧
    node.span = first.span.through (rest.getLastD first).span

/-- A prelude with an at-keyword begins with it. -/
theorem exists_keyword
    {head : List Token}
    {keyword : Token}
    (begins : (Prelude.ofTokens head).keyword = some keyword) :
    ∃ rest, head = keyword :: rest ∧ (Prelude.ofTokens head).reversed = rest.reverse := by
  cases head with
  | nil => exact absurd begins (Option.some_ne_none keyword).symm
  | cons first rest =>
      rw [Prelude.ofTokens] at begins ⊢
      split at begins
      · next isKeyword =>
          rw [if_pos isKeyword]
          exact ⟨rest, by rw [Option.some.inj begins], rfl⟩
      · exact absurd begins (Option.some_ne_none keyword).symm

/-- An at-statement with a semicolon reaches from its keyword to there. -/
theorem spans_statement
    {nested : Bool}
    {head : List Token}
    {semicolon : Token}
    {node : Node}
    (isStatement : (Prelude.ofTokens head).statement? nested (some semicolon.span) = some node)
    (isAtRule : ImportRule.atRule? node ≠ none) :
    Spans (head ++ [semicolon]) node := by
  unfold Prelude.statement? at isStatement
  cases keyword : (Prelude.ofTokens head).keyword with
  | some word =>
      rw [keyword] at isStatement
      obtain rfl := Option.some.inj isStatement
      obtain ⟨rest, rfl, -⟩ := exists_keyword keyword
      exact ⟨word, rest ++ [semicolon], rfl, by rw [List.getLastD_concat]; rfl⟩
  | none =>
      simp only [keyword] at isStatement
      split at isStatement
      · obtain rfl := Option.some.inj isStatement
        exact absurd rfl isAtRule
      · exact absurd isStatement nofun

/-- An at-rule with a block reaches from its keyword to the closing brace. -/
theorem spans_block
    {head body : List Token}
    {brace close : Token}
    {nodes : List Node}
    (isAtRule : ImportRule.atRule?
      (((Prelude.ofTokens head).toHeader brace).toNode nodes close.span) ≠ none) :
    Spans (head ++ brace :: (body ++ [close]))
      (((Prelude.ofTokens head).toHeader brace).toNode nodes close.span) := by
  unfold Prelude.toHeader at isAtRule ⊢
  cases keyword : (Prelude.ofTokens head).keyword with
  | some word =>
      obtain ⟨rest, rfl, -⟩ := exists_keyword keyword
      refine ⟨word, rest ++ brace :: (body ++ [close]), rfl, ?_⟩
      rw [← List.cons_append, ← List.append_assoc, List.getLastD_concat]
      rfl
  | none =>
      rw [keyword] at isAtRule
      exact absurd rfl isAtRule

/-- Where tokens stand that are placed one behind the other. -/
theorem placed_bounds
    {offset : Nat}
    {lexemes : List Lexeme}
    {before rest after : List Token}
    {first : Token}
    (split : Lexeme.place offset lexemes = before ++ (first :: rest ++ after)) :
    first.start = offset + (Token.join before).byteSize ∧
      (rest.getLastD first).stop =
        offset + (Token.join before).byteSize + (Token.join (first :: rest)).byteSize := by
  have placed := Lexeme.eq_place_of_place_eq_append split
  rw [List.cons_append] at placed
  refine ⟨?_, Lexeme.stop_getLastD_of_place_eq_append placed.symm⟩
  rw [List.map_cons, Lexeme.place] at placed
  exact congrArg Token.start (List.cons.inj placed).1

/-- The bytes of a node that its tokens span. -/
theorem Spans.span_eq
    {offset : Nat}
    {lexemes : List Lexeme}
    {before middle after : List Token}
    {node : Node}
    (spans : Spans middle node)
    (split : Lexeme.place offset lexemes = before ++ (middle ++ after)) :
    node.span =
      ⟨offset + (Token.join before).byteSize,
        offset + (Token.join before).byteSize + (Token.join middle).byteSize⟩ := by
  obtain ⟨first, rest, rfl, covers⟩ := spans
  obtain ⟨starts, stops⟩ := placed_bounds split
  rw [covers]
  unfold Span.through Token.span
  simp only
  rw [stops, starts, Nat.max_eq_left (Nat.le_add_right _ _)]

/-- Where readings divide at one of the nodes. -/
theorem Reads.exists_divided
    {nested : Bool}
    {tokens rest : List Token}
    {nodes before after : List Node}
    {node : Node}
    (reads : Reads nested tokens nodes rest)
    (split : nodes = before ++ node :: after) :
    ∃ front middle back, tokens = front ++ (middle ++ back) ∧
      (∀ other, Reads nested (front ++ other) before other) ∧
        Reads nested back after rest ∧
          (ImportRule.atRule? node ≠ none → Spans middle node) := by
  induction reads generalizing before with
  | done nested tokens =>
      have present : node ∈ [] := split ▸ List.mem_append_right before List.mem_cons_self
      exact absurd present List.not_mem_nil
  | @skip _ token _ _ _ separates _ inductionHypothesis =>
      obtain ⟨front, middle, back, rfl, free, later, spans⟩ := inductionHypothesis split
      exact ⟨token :: front, middle, back, rfl, fun other => .skip separates (free other),
        later, spans⟩
  | @comment _ token tokens _ _ isComment later inductionHypothesis =>
      cases before with
      | nil =>
          obtain ⟨rfl, rfl⟩ := List.cons.inj split
          exact ⟨[], [token], tokens, rfl, .done _, later, fun isAtRule => absurd rfl isAtRule⟩
      | cons first others =>
          obtain ⟨rfl, splitLater⟩ := List.cons.inj split
          obtain ⟨front, middle, back, rfl, free, later, spans⟩ := inductionHypothesis splitLater
          exact ⟨token :: front, middle, back, rfl,
            fun other => .comment isComment (free other), later, spans⟩
  | @statement _ head tokens _ semicolon _ _ isPrelude level isSemicolon isStatement later
      inductionHypothesis =>
      cases before with
      | nil =>
          obtain ⟨rfl, rfl⟩ := List.cons.inj split
          exact ⟨[], head ++ [semicolon], tokens, by simp, .done _, later,
            spans_statement isStatement⟩
      | cons first others =>
          obtain ⟨rfl, splitLater⟩ := List.cons.inj split
          obtain ⟨front, middle, back, rfl, free, later, spans⟩ := inductionHypothesis splitLater
          refine ⟨head ++ semicolon :: front, middle, back, by simp, fun other => ?_, later,
            spans⟩
          rw [List.append_assoc, List.cons_append]
          exact .statement isPrelude level isSemicolon isStatement (free other)
  | @block _ head _ tail tokens _ brace close inner last _ isHead isOpen within ends isClose
      later _ laterHypothesis =>
      obtain ⟨body, rfl, free⟩ := within.exists_front
      cases before with
      | nil =>
          obtain ⟨rfl, rfl⟩ := List.cons.inj split
          refine ⟨[], head ++ brace :: ((body ++ tail) ++ [close]), tokens, by simp, .done _,
            later, spans_block⟩
      | cons first others =>
          obtain ⟨rfl, splitLater⟩ := List.cons.inj split
          obtain ⟨front, middle, back, rfl, free', later, spans⟩ := laterHypothesis splitLater
          refine ⟨head ++ brace :: (body ++ (tail ++ close :: front)), middle, back, by simp,
            fun other => ?_, later, spans⟩
          rw [List.append_assoc, List.cons_append, List.append_assoc, List.append_assoc,
            List.cons_append]
          exact .block isHead isOpen (free _) ends isClose (free' other)

/-- At most one statement does without its semicolon. -/
theorem Ends.length_le
    {nested : Bool}
    {tail : List Token}
    {nodes : List Node}
    (ends : Ends nested tail nodes) :
    nodes.length ≤ 1 := by
  cases ends with
  | closed => exact Nat.zero_le 1
  | unfinished => exact Nat.le_refl 1

/-- The last of some tokens is that of the last ones. -/
theorem getLastD_append_cons (lead rest : List Token) (first other : Token) :
    (lead ++ first :: rest).getLastD other = rest.getLastD first := by
  simp [List.getLastD_eq_getLast?, List.getLast?_append, List.getLast?_cons]

theorem paramsSpan_of_nil
    {word : Token}
    {pre : Prelude}
    (content : pre.content = []) :
    paramsSpan word pre = .empty word.stop := by
  unfold paramsSpan Prelude.span?
  rw [content]
  rfl

theorem paramsSpan_of_cons
    {word first : Token}
    {more : List Token}
    {pre : Prelude}
    (content : pre.content = first :: more) :
    paramsSpan word pre = first.span.through (more.getLastD first).span := by
  unfold paramsSpan
  rw [Prelude.span?_of_content content]
  rfl

/-- An at-statement that the end of a text ends reaches to the end of its params, and
only trivia follows it. -/
theorem Ends.exists_divided
    {offset : Nat}
    {lexemes : List Lexeme}
    {front tail : List Token}
    {node : Node}
    (ends : Ends false tail [node])
    (placed : Lexeme.place offset lexemes = front ++ tail) :
    node.isUnfinished = true ∧ ∃ middle trail, tail = middle ++ trail ∧ Spans middle node ∧
      ∀ token ∈ trail, token.kind.isTrivia = true := by
  cases ends with
  | unfinished isPrelude isStatement =>
      unfold Prelude.statement? at isStatement
      cases keyword : (Prelude.ofTokens tail).keyword with
      | none =>
          simp only [keyword] at isStatement
          exact absurd isStatement nofun
      | some word =>
          rw [keyword] at isStatement
          obtain rfl := Option.some.inj isStatement
          obtain ⟨rest, rfl, reversed⟩ := exists_keyword keyword
          let pre := Prelude.ofTokens (word :: rest)
          obtain ⟨lead, trail, around, leadTrivia, trailTrivia⟩ := pre.exists_around_content
          rw [reversed, List.reverse_reverse] at around
          cases content : pre.content with
          | nil =>
              -- Without params the statement is its keyword, and all that follows is trivia.
              have nothing : paramsSpan word pre = .empty word.stop := paramsSpan_of_nil content
              have forwards : max word.stop word.start = word.stop :=
                Nat.max_eq_left (Nat.le_add_right _ _)
              rw [content, List.nil_append] at around
              refine ⟨?_, [word], rest, rfl, ⟨word, [], rfl, ?_⟩, fun token present => ?_⟩
              · rw [nothing]
                exact beq_iff_eq.mpr forwards
              · rw [nothing]
                rfl
              · rw [around] at present
                exact (List.mem_append.mp present).elim (leadTrivia token) (trailTrivia token)
          | cons first more =>
              rw [content] at around
              have inner : Lexeme.place offset lexemes =
                  (front ++ word :: lead) ++ (first :: more ++ trail) := by
                rw [placed, around, List.append_assoc, List.cons_append]
                rfl
              have outer : Lexeme.place offset lexemes = front ++ (word :: rest ++ []) := by
                rw [placed, List.append_nil]
              obtain ⟨starts, stops⟩ := placed_bounds inner
              obtain ⟨begins, -⟩ := placed_bounds outer
              have behind : (more.getLastD first).stop ≥ first.start := by omega
              have wider : word.start ≤ (more.getLastD first).stop := by
                rw [begins, stops, Token.join_append, Text.byteSize_append]
                omega
              have paramsStop : (paramsSpan word pre).stop = (more.getLastD first).stop := by
                rw [paramsSpan_of_cons content, Span.stop_through]
                exact Nat.max_eq_left behind
              refine ⟨?_, word :: (lead ++ first :: more), trail, ?_,
                ⟨word, lead ++ first :: more, rfl, ?_⟩, trailTrivia⟩
              · change ((max (paramsSpan word pre).stop word.start) ==
                  (paramsSpan word pre).stop) = true
                rw [paramsStop]
                exact beq_iff_eq.mpr (Nat.max_eq_left wider)
              · rw [around]
                simp
              · rw [getLastD_append_cons]
                change (⟨word.start, max (paramsSpan word pre).stop word.start⟩ : Span) = _
                rw [paramsStop]
                rfl

/-! ## At-rules outside all blocks -/

/-- How tokens divide at an at-rule among the nodes that they read as. -/
structure Divides
    (offset : Nat)
    (lexemes : List Lexeme)
    (before : List Node)
    (node : Node)
    (after : List Node)
    (front middle back : List Token) : Prop where
  tokens : Lexeme.place offset lexemes = front ++ (middle ++ back)
  reads : Reads false front before []
  span : node.span =
    ⟨offset + (Token.join front).byteSize,
      offset + (Token.join front).byteSize + (Token.join middle).byteSize⟩
  /-- What stands behind reads as the nodes behind, or has been swallowed. -/
  rest : ReadsAll back after ∨
    node.isUnfinished = true ∧ after = [] ∧ ∀ token ∈ back, token.kind.isTrivia = true

theorem ReadsAll.exists_divides
    {offset : Nat}
    {lexemes : List Lexeme}
    {before after : List Node}
    {node : Node}
    (reads : ReadsAll (Lexeme.place offset lexemes) (before ++ node :: after))
    (isAtRule : ImportRule.atRule? node ≠ none) :
    ∃ front middle back, Divides offset lexemes before node after front middle back := by
  obtain ⟨nodes, tail, last, reads, ends, split⟩ := reads
  rcases cases_of_append_eq_append_cons split.symm with ⟨more, rfl, rfl⟩ | ⟨more, rfl, rfl⟩
  · obtain ⟨front, middle, back, split, free, later, spans⟩ := reads.exists_divided rfl
    have whole := free []
    rw [List.append_nil] at whole
    exact ⟨front, middle, back, split, whole, (spans isAtRule).span_eq split,
      .inl ⟨more, tail, last, later, ends, rfl⟩⟩
  · have single : more = [] ∧ after = [] := by
      have bound := ends.length_le
      rw [List.length_append, List.length_cons] at bound
      exact ⟨List.length_eq_zero_iff.mp (by omega), List.length_eq_zero_iff.mp (by omega)⟩
    obtain ⟨rfl, rfl⟩ := single
    obtain ⟨front, split, free⟩ := reads.exists_front
    obtain ⟨unfinished, middle, trail, rfl, spans, trivia⟩ := ends.exists_divided split
    have whole := free []
    rw [List.append_nil] at whole
    refine ⟨front, middle, trail, split, ?_, spans.span_eq split, .inr ⟨unfinished, rfl, trivia⟩⟩
    rwa [List.append_nil]

end Parser
end StyleTypings
