import Mathlib.Data.List.DropRight
import StyleTypings.Proofs.Stylesheet.Blanking
import StyleTypings.Proofs.Stylesheet.Outlines
import StyleTypings.Proofs.Stylesheet.Recovery

/-!
# Parsing with spaces for comments

A text with spaces for its comments has the same rules as the text, and their selectors
are those of the text with spaces for the comments in them. This holds whatever faults
there are. Other texts need not correspond: a declaration may lose its colon with a
comment, but it never has a selector.

The parser takes both texts in step. A token between two runs of trivia does the same in
both states, and the trivia of a run together do what its whitespace does.
-/

namespace StyleTypings

namespace Exported

mutual

/-- The selectors whose classes a node exports. -/
def selectorsOf : Node → List Text
  | .rule selector _ _ nodes => selector :: selectorsAll nodes
  | .atBlock name _ _ _ nodes => if isKeyframesName name then [] else selectorsAll nodes
  | _ => []

/-- The selectors whose classes a forest exports. -/
def selectorsAll : List Node → List Text
  | [] => []
  | node :: rest => selectorsOf node ++ selectorsAll rest

end

mutual

theorem ofNode_eq_flatMap :
    (node : Node) → ofNode node = (selectorsOf node).flatMap Selector.classes
  | .rule selector _ _ nodes => by
      rw [ofNode, selectorsOf, List.flatMap_cons, ofForest_eq_flatMap nodes]
  | .atBlock name _ _ _ nodes => by
      rw [ofNode, selectorsOf, ofForest_eq_flatMap nodes]
      split <;> rfl
  | .atStatement _ _ _ _ => rfl
  | .declaration _ _ _ => rfl
  | .comment _ _ => rfl

/-- What a forest exports are the classes of these selectors. -/
theorem ofForest_eq_flatMap :
    (nodes : List Node) → ofForest nodes = (selectorsAll nodes).flatMap Selector.classes
  | [] => rfl
  | node :: rest => by
      rw [ofForest, selectorsAll, List.flatMap_append, ofNode_eq_flatMap node,
        ofForest_eq_flatMap rest]

end

theorem selectorsAll_append (front back : List Node) :
    selectorsAll (front ++ back) = selectorsAll front ++ selectorsAll back := by
  induction front with
  | nil => rfl
  | cons node rest inductionHypothesis =>
      rw [List.cons_append, selectorsAll, inductionHypothesis, selectorsAll, List.append_assoc]

theorem selectorsAll_concat (nodes : List Node) (node : Node) :
    selectorsAll (nodes ++ [node]) = selectorsAll nodes ++ selectorsOf node := by
  rw [selectorsAll_append, selectorsAll, selectorsAll, List.append_nil]

theorem selectorsAll_of_leaves
    {leaves : List Node}
    (areLeaves : ∀ leaf ∈ leaves, leaf.hasBlock = false) :
    selectorsAll leaves = [] := by
  induction leaves with
  | nil => rfl
  | cons leaf rest inductionHypothesis =>
      have none : selectorsOf leaf = [] := by
        have isLeaf := areLeaves leaf List.mem_cons_self
        cases leaf <;> first | rfl | exact absurd isLeaf nofun
      have noneBehind := inductionHypothesis fun other present =>
        areLeaves other (List.mem_cons_of_mem leaf present)
      rw [selectorsAll, none, noneBehind]
      rfl

end Exported

namespace Lexer

/-! ## Condensed lexemes -/

variable {width : Text → Nat}

namespace Condenses

theorem append
    {front back others more : List Lexeme}
    (first : Condenses width front others)
    (second : Condenses width back more) :
    Condenses width (front ++ back) (others ++ more) := by
  induction first with
  | nil => exact second
  | solid isSolid _ inductionHypothesis => exact .solid isSolid inductionHypothesis
  | run areGaps nonempty _ inductionHypothesis =>
      rw [List.append_assoc]
      exact .run areGaps nonempty inductionHypothesis

theorem eq_nil_iff
    {lexemes others : List Lexeme}
    (condenses : Condenses width lexemes others) :
    lexemes = [] ↔ others = [] := by
  cases condenses with
  | nil => exact Iff.rfl
  | solid => exact ⟨nofun, nofun⟩
  | run _ nonempty =>
      exact ⟨fun empty => absurd (List.append_eq_nil_iff.mp empty).1 nonempty, nofun⟩

/-- The text of what is left is the text with spaces for comments. -/
theorem flatMap_text
    {lexemes others : List Lexeme}
    (condenses : Condenses width lexemes others) :
    others.flatMap Lexeme.text = lexemes.flatMap (blankComment width) := by
  induction condenses with
  | nil => rfl
  | @solid lexeme rest others isSolid _ inductionHypothesis =>
      have noComment : lexeme.kind ≠ .comment := by
        intro isComment
        rw [isComment] at isSolid
        exact absurd isSolid nofun
      rw [List.flatMap_cons, List.flatMap_cons, inductionHypothesis, blankComment_of_ne noComment]
  | run _ _ _ inductionHypothesis =>
      rw [List.flatMap_cons, List.flatMap_append, inductionHypothesis]

theorem dropWhile_isTrivia
    {lexemes others : List Lexeme}
    (condenses : Condenses width lexemes others) :
    Condenses width (lexemes.dropWhile (·.kind.isTrivia)) (others.dropWhile (·.kind.isTrivia)) := by
  induction condenses with
  | nil => exact .nil
  | solid isSolid later =>
      rw [List.dropWhile_cons_of_neg (by simp [isSolid]),
        List.dropWhile_cons_of_neg (by simp [isSolid])]
      exact .solid isSolid later
  | run areGaps _ _ inductionHypothesis =>
      rw [List.dropWhile_append_of_pos fun lexeme present => (areGaps lexeme present).isTrivia,
        List.dropWhile_cons_of_pos rfl]
      exact inductionHypothesis

theorem rdropWhile_append {α : Type} (test : α → Bool) (front back : List α) :
    (front ++ back).rdropWhile test =
      if back.rdropWhile test = [] then front.rdropWhile test
      else front ++ back.rdropWhile test := by
  unfold List.rdropWhile
  rw [List.reverse_append, List.dropWhile_append]
  simp only [List.isEmpty_iff, List.reverse_eq_nil_iff]
  split
  · rfl
  · rw [List.reverse_append, List.reverse_reverse]

theorem rdropWhile_isTrivia
    {lexemes others : List Lexeme}
    (condenses : Condenses width lexemes others) :
    Condenses width (lexemes.rdropWhile (·.kind.isTrivia))
      (others.rdropWhile (·.kind.isTrivia)) := by
  induction condenses with
  | nil => exact .nil
  | @solid lexeme rest others isSolid _ inductionHypothesis =>
      have kept (behind : List Lexeme) : (lexeme :: behind).rdropWhile (·.kind.isTrivia) =
          lexeme :: behind.rdropWhile (·.kind.isTrivia) := by
        rw [← List.singleton_append, rdropWhile_append, List.rdropWhile_singleton, isSolid]
        split
        · next nothing => rw [nothing]; rfl
        · rfl
      rw [kept, kept]
      exact .solid isSolid inductionHypothesis
  | @run trivia rest others areGaps nonempty _ inductionHypothesis =>
      rw [rdropWhile_append, ← List.singleton_append, rdropWhile_append,
        List.rdropWhile_eq_nil_iff.mpr fun lexeme present => (areGaps lexeme present).isTrivia]
      by_cases nothing : rest.rdropWhile (·.kind.isTrivia) = []
      · rw [if_pos nothing, if_pos (inductionHypothesis.eq_nil_iff.mp nothing)]
        exact .nil
      · rw [if_neg nothing, if_neg fun none => nothing (inductionHypothesis.eq_nil_iff.mpr none)]
        exact .run areGaps nonempty inductionHypothesis

end Condenses

end Lexer

theorem TokenKind.IsGap.isPlain
    {kind : TokenKind}
    (isGap : kind.IsGap) :
    kind.isPlain = true := by
  rcases isGap with rfl | rfl <;> rfl

namespace Parser

open Lexer

variable {width : Text → Nat}

/-! ## Preludes -/

/-- A prelude takes in all trivia. -/
theorem runs_of_gaps
    {trivia : List Token}
    (areGaps : ∀ token ∈ trivia, token.kind.IsGap)
    (depth : Nat) :
    Runs depth trivia := by
  induction trivia generalizing depth with
  | nil => trivial
  | cons token rest inductionHypothesis =>
      refine ⟨?_, inductionHypothesis
        (fun other present => areGaps other (List.mem_cons_of_mem token present)) _⟩
      rcases areGaps token List.mem_cons_self with kind | kind <;> rw [kind] <;> rfl

/-- Two preludes of the same tokens but for their trivia. -/
structure Prelude.Condenses (width : Text → Nat) (pre other : Prelude) : Prop where
  keyword : pre.keyword.map Token.lexeme = other.keyword.map Token.lexeme
  depth : pre.depth = other.depth
  tokens : Lexer.Condenses width (pre.reversed.reverse.map Token.lexeme)
    (other.reversed.reverse.map Token.lexeme)

namespace Prelude

theorem map_lexeme_content_eq (pre : Prelude) :
    pre.content.map Token.lexeme =
      ((pre.reversed.reverse.map Token.lexeme).rdropWhile (·.kind.isTrivia)).dropWhile
        (·.kind.isTrivia) := by
  rw [map_lexeme_content, List.map_reverse, List.rdropWhile_reverse]

theorem content_infix (pre : Prelude) : pre.content <:+: pre.reversed.reverse :=
  (List.dropWhile_suffix _).isInfix.trans
    (List.reverse_prefix.mpr (List.dropWhile_suffix _)).isInfix

/-- Both preludes take in the same token. -/
theorem Condenses.push
    {pre other : Prelude}
    {token word : Token}
    (condenses : pre.Condenses width other)
    (same : token.lexeme = word.lexeme)
    (isSolid : token.kind.isTrivia = false) :
    (pre.push token).Condenses width (other.push word) := by
  obtain ⟨keyword, depth, tokens⟩ := condenses
  have sameKind : token.kind = word.kind := congrArg Lexeme.kind same
  refine ⟨keyword, ?_, ?_⟩
  · unfold Prelude.push
    rw [depth, sameKind]
  · unfold Prelude.push
    rw [List.reverse_cons, List.reverse_cons, List.map_append, List.map_append,
      List.map_singleton, List.map_singleton, ← same]
    exact tokens.append (.solid isSolid .nil)

/-- One prelude takes in some trivia, the other the whitespace that they become. -/
theorem Condenses.pushTrivia
    {pre other : Prelude}
    {trivia : List Token}
    {space : Token}
    (condenses : pre.Condenses width other)
    (areGaps : ∀ token ∈ trivia, token.kind.IsGap)
    (nonempty : trivia ≠ [])
    (becomes : space.lexeme =
      ⟨.whitespace, (trivia.map Token.lexeme).flatMap (blankComment width)⟩) :
    (trivia.foldl Prelude.push pre).Condenses width (other.push space) := by
  obtain ⟨keyword, depth, tokens⟩ := condenses
  have level : nesting pre.depth trivia = pre.depth := by
    clear becomes nonempty depth tokens
    induction trivia with
    | nil => rfl
    | cons token rest inductionHypothesis =>
        have later := inductionHypothesis fun other present =>
          areGaps other (List.mem_cons_of_mem token present)
        change nesting (token.kind.depthAfter pre.depth) rest = _
        rcases areGaps token List.mem_cons_self with kind | kind <;> rw [kind] <;> exact later
  have sameLevel : (other.push space).depth = other.depth := by
    unfold Prelude.push
    rw [show space.kind = _ from congrArg Lexeme.kind becomes]
    rfl
  rw [foldl_push]
  refine ⟨keyword, ?_, ?_⟩
  · rw [sameLevel, ← depth]
    exact level
  · unfold Prelude.push
    rw [List.reverse_append, List.reverse_reverse, List.reverse_cons, List.map_append,
      List.map_append, List.map_singleton, becomes]
    refine tokens.append ?_
    have run := @Lexer.Condenses.run width (trivia.map Token.lexeme) [] [] ?_ ?_ .nil
    · rwa [List.append_nil] at run
    · exact List.forall_mem_map.mpr areGaps
    · exact fun empty => nonempty (List.map_eq_nil_iff.mp empty)

/-- The text of the one prelude is that of the other with spaces for comments. -/
theorem Condenses.text
    {pre other : Prelude}
    (condenses : pre.Condenses width other)
    (lexed : Lexed pre.reversed.reverse) :
    other.text = blankComments width pre.text := by
  obtain ⟨before, after, split⟩ := pre.content_infix
  have own : Lexed pre.content := by
    rw [← split] at lexed
    exact lexed.parts.1.parts.2
  have contents := condenses.tokens.rdropWhile_isTrivia.dropWhile_isTrivia.flatMap_text
  rw [← map_lexeme_content_eq, ← map_lexeme_content_eq, Token.flatMap_text_map_lexeme,
    ← own] at contents
  exact contents

end Prelude

/-! ## States -/

/-- Two headers of the same kind: selectors with spaces for comments, or the same
at-keyword. -/
def Header.Blanks (width : Text → Nat) : Header → Header → Prop
  | .selector text _, .selector other _ => other = blankComments width text
  | .atRule keyword _ _, .atRule other _ _ => keyword.lexeme = other.lexeme
  | _, _ => False

/-- The selectors of some nodes, last first, are those of others with spaces for comments. -/
def NodesBlank (width : Text → Nat) (nodes others : List Node) : Prop :=
  Exported.selectorsAll others.reverse =
    (Exported.selectorsAll nodes.reverse).map (blankComments width)

/-- Two open blocks with the same selectors but for comments. -/
structure OpenBlock.Blanks (width : Text → Nat) (block other : OpenBlock) : Prop where
  header : block.header.Blanks width other.header
  before : NodesBlank width block.before other.before

/-- Two states with the same selectors but for comments. -/
structure State.Blanks (width : Text → Nat) (state other : State) : Prop where
  blocks : List.Forall₂ (OpenBlock.Blanks width) state.blocks other.blocks
  nodes : NodesBlank width state.nodes other.nodes
  pre : Option.Rel (Prelude.Condenses width) state.pre other.pre

theorem NodesBlank.cons
    {node other : Node}
    {nodes others : List Node}
    (blanks : NodesBlank width nodes others)
    (same : Exported.selectorsOf other =
      (Exported.selectorsOf node).map (blankComments width)) :
    NodesBlank width (node :: nodes) (other :: others) := by
  unfold NodesBlank at blanks ⊢
  rw [List.reverse_cons, List.reverse_cons, Exported.selectorsAll_concat,
    Exported.selectorsAll_concat, blanks, same, List.map_append]

/-- Nodes without blocks on either side do not matter. -/
theorem NodesBlank.leaves
    {nodes others leaves more : List Node}
    (blanks : NodesBlank width nodes others)
    (areLeaves : ∀ leaf ∈ leaves, leaf.hasBlock = false)
    (areLeavesToo : ∀ leaf ∈ more, leaf.hasBlock = false) :
    NodesBlank width (leaves ++ nodes) (more ++ others) := by
  have none := Exported.selectorsAll_of_leaves
    fun leaf present => areLeaves leaf (List.mem_reverse.mp present)
  have noneToo := Exported.selectorsAll_of_leaves
    fun leaf present => areLeavesToo leaf (List.mem_reverse.mp present)
  unfold NodesBlank at blanks ⊢
  rw [List.reverse_append, List.reverse_append, Exported.selectorsAll_append,
    Exported.selectorsAll_append, none, noneToo, List.append_nil, List.append_nil, blanks]

theorem Header.Blanks.selectorsOf
    {header other : Header}
    {nodes others : List Node}
    (blanks : header.Blanks width other)
    (within : NodesBlank width nodes others)
    (close finish : Span) :
    Exported.selectorsOf (other.toNode others.reverse finish) =
      (Exported.selectorsOf (header.toNode nodes.reverse close)).map (blankComments width) := by
  unfold NodesBlank at within
  cases header with
  | selector text span =>
      cases other with
      | selector otherText otherSpan =>
          rw [toNode, toNode, Exported.selectorsOf, Exported.selectorsOf, List.map_cons, within,
            show otherText = _ from blanks]
      | atRule => exact blanks.elim
  | atRule keyword params span =>
      cases other with
      | selector => exact blanks.elim
      | atRule word otherParams otherSpan =>
          have sameName : keywordName keyword = keywordName word :=
            Prelude.Alike.keywordName_eq blanks
          rw [toNode, toNode, Exported.selectorsOf, Exported.selectorsOf, within, sameName]
          split <;> rfl

/-- What is quiet on either side does not matter. -/
theorem State.Blanks.quiet
    {state other after next : State}
    (blanks : state.Blanks width other)
    (quiet : Quiet state after)
    (quietToo : Quiet other next)
    (pre : Option.Rel (Prelude.Condenses width) after.pre next.pre) :
    after.Blanks width next := by
  obtain ⟨leaves, nodes, areLeaves⟩ := quiet.nodes
  obtain ⟨more, nodesToo, areLeavesToo⟩ := quietToo.nodes
  refine ⟨?_, ?_, pre⟩
  · rw [quiet.blocks, quietToo.blocks]
    exact blanks.blocks
  · rw [nodes, nodesToo]
    exact blanks.nodes.leaves areLeaves areLeavesToo

theorem State.Blanks.openBlock
    {state other : State}
    {header next : Header}
    (blanks : state.Blanks width other)
    (same : header.Blanks width next) :
    (state.openBlock header).Blanks width (other.openBlock next) :=
  ⟨.cons ⟨same, blanks.nodes⟩ blanks.blocks, rfl, .none⟩

theorem State.Blanks.closeBlock
    {state other : State}
    (blanks : state.Blanks width other)
    (close finish : Span) :
    (state.closeBlock close).Blanks width (other.closeBlock finish) := by
  obtain ⟨blocks, nodes, pre⟩ := blanks
  unfold State.closeBlock
  rcases state with ⟨stateBlocks, stateNodes, statePre, stateFaults⟩
  rcases other with ⟨otherBlocks, otherNodes, otherPre, otherFaults⟩
  cases blocks with
  | nil => exact ⟨.nil, nodes, pre⟩
  | cons block outer =>
      exact ⟨outer, block.before.cons (block.header.selectorsOf nodes close finish), pre⟩

/-! ## Steps -/

theorem State.Blanks.pre_of_outside
    {state other : State}
    (blanks : state.Blanks width other)
    (outside : state.pre = none) :
    other.pre = none := by
  have pre := blanks.pre
  rw [outside] at pre
  cases otherPre : other.pre with
  | none => rfl
  | some _ =>
      rw [otherPre] at pre
      exact nomatch pre

theorem State.Blanks.exists_pre
    {state other : State}
    {pre : Prelude}
    (blanks : state.Blanks width other)
    (inside : state.pre = some pre) :
    ∃ otherPre, other.pre = some otherPre ∧ pre.Condenses width otherPre := by
  have related := blanks.pre
  rw [inside] at related
  cases otherPre : other.pre with
  | none =>
      rw [otherPre] at related
      exact nomatch related
  | some begun =>
      rw [otherPre] at related
      cases related with
      | some condenses => exact ⟨begun, rfl, condenses⟩

theorem State.Blanks.blocks_eq_nil_iff
    {state other : State}
    (blanks : state.Blanks width other) :
    other.blocks = [] ↔ state.blocks = [] := by
  rw [← List.length_eq_zero_iff, ← List.length_eq_zero_iff, blanks.blocks.length_eq]

theorem State.Blanks.endStatement
    {state other : State}
    (blanks : state.Blanks width other)
    (pre otherPre : Prelude)
    (semicolon otherSemicolon : Option Span) :
    (state.endStatement pre semicolon).Blanks width
      (other.endStatement otherPre otherSemicolon) := by
  refine blanks.quiet (State.quiet_endStatement state pre semicolon)
    (State.quiet_endStatement other otherPre otherSemicolon) ?_
  rw [pre_endStatement, pre_endStatement]
  exact .none

theorem State.Blanks.endSource
    {state other : State}
    (blanks : state.Blanks width other) :
    state.endSource.Blanks width other.endSource := by
  refine blanks.quiet (quiet_endSource state) (quiet_endSource other) ?_
  rw [pre_endSource, pre_endSource]
  exact .none

theorem Prelude.Condenses.toHeader
    {pre other : Prelude}
    (condenses : pre.Condenses width other)
    (lexed : Lexed pre.reversed.reverse)
    (brace word : Token) :
    (pre.toHeader brace).Blanks width (other.toHeader word) := by
  unfold Prelude.toHeader
  obtain ⟨keyword, keywordToo⟩ | ⟨first, second, keyword, keywordToo, sameWord⟩ :=
    missing_or_exists_of_map_lexeme_eq condenses.keyword
  · rw [keyword, keywordToo]
    exact condenses.text lexed
  · rw [keyword, keywordToo]
    exact sameWord

/-- Both states take in the same token. -/
theorem State.Blanks.step
    {state other : State}
    {token word : Token}
    (blanks : state.Blanks width other)
    (lexed : Lexed state.read)
    (same : token.lexeme = word.lexeme)
    (isSolid : token.kind.isTrivia = false) :
    (state.step token).Blanks width (other.step word) := by
  have sameKind : token.kind = word.kind := congrArg Lexeme.kind same
  have ended := blanks.endSource
  generalize taken : state.step token = after
  cases State.steps_iff.mpr taken with
  | skip outside separates =>
      rw [sameKind] at separates
      rw [(State.Steps.skip (blanks.pre_of_outside outside) separates).step_eq]
      exact blanks
  | comment _ isComment =>
      rw [isComment] at isSolid
      exact absurd isSolid nofun
  | keyword outside isKeyword =>
      rw [sameKind] at isKeyword
      rw [(State.Steps.keyword (blanks.pre_of_outside outside) isKeyword).step_eq]
      exact ⟨blanks.blocks, blanks.nodes, .some ⟨congrArg some same, rfl, .nil⟩⟩
  | begins outside begins noKeyword =>
      rw [sameKind] at begins noKeyword
      rw [(State.Steps.begins (blanks.pre_of_outside outside) begins noKeyword).step_eq]
      exact ⟨blanks.blocks, blanks.nodes,
        .some (Prelude.Condenses.push ⟨rfl, rfl, .nil⟩ same isSolid)⟩
  | continues inside continues =>
      obtain ⟨otherPre, insideToo, condenses⟩ := blanks.exists_pre inside
      rw [sameKind, condenses.depth] at continues
      rw [(State.Steps.continues insideToo continues).step_eq]
      exact ⟨blanks.blocks, blanks.nodes, .some (condenses.push same isSolid)⟩
  | bareBlock outside isOpen =>
      rw [sameKind] at isOpen
      rw [(State.Steps.bareBlock (blanks.pre_of_outside outside) isOpen).step_eq]
      exact blanks.openBlock blankComments_nil.symm
  | block inside isOpen =>
      obtain ⟨otherPre, insideToo, condenses⟩ := blanks.exists_pre inside
      unfold State.read at lexed
      rw [inside] at lexed
      rw [sameKind] at isOpen
      rw [(State.Steps.block insideToo isOpen).step_eq]
      exact blanks.openBlock (condenses.toHeader lexed token word)
  | close isClose nested =>
      rw [sameKind] at isClose
      rw [(State.Steps.close isClose (mt ended.blocks_eq_nil_iff.mp nested)).step_eq]
      exact ended.closeBlock _ _
  | stray isClose outermost =>
      rw [sameKind] at isClose
      rw [(State.Steps.stray isClose (ended.blocks_eq_nil_iff.mpr outermost)).step_eq]
      exact ⟨ended.blocks, ended.nodes, ended.pre⟩
  | statement inside isSemicolon level =>
      obtain ⟨otherPre, insideToo, condenses⟩ := blanks.exists_pre inside
      rw [sameKind] at isSemicolon
      rw [condenses.depth] at level
      rw [(State.Steps.statement insideToo isSemicolon level).step_eq]
      exact blanks.endStatement _ _ _ _
  | invalidOutside outside isInvalid =>
      rw [sameKind] at isInvalid
      rw [(State.Steps.invalidOutside (blanks.pre_of_outside outside) isInvalid).step_eq]
      exact ⟨blanks.blocks, blanks.nodes, blanks.pre⟩
  | invalidInside inside isInvalid =>
      obtain ⟨otherPre, insideToo, condenses⟩ := blanks.exists_pre inside
      rw [sameKind] at isInvalid
      rw [(State.Steps.invalidInside insideToo isInvalid).step_eq]
      exact ⟨blanks.blocks, blanks.nodes, .some (condenses.push same isSolid)⟩

/-- One state takes in some trivia, the other the whitespace that they become. -/
theorem State.Blanks.trivia
    {state other : State}
    {trivia : List Token}
    {space : Token}
    (blanks : state.Blanks width other)
    (areGaps : ∀ token ∈ trivia, token.kind.IsGap)
    (nonempty : trivia ≠ [])
    (becomes : space.lexeme =
      ⟨.whitespace, (trivia.map Token.lexeme).flatMap (blankComment width)⟩) :
    (trivia.foldl State.step state).Blanks width (other.step space) := by
  have isSpace : space.kind = .whitespace := congrArg Lexeme.kind becomes
  cases begun : state.pre with
  | none =>
      have added : trivia.foldl State.step state = state.withNodes (commentsOf trivia) := by
        have reads := reads_trivia (fun token present => (areGaps token present).isPlain)
          (fun token present => (areGaps token present).isTrivia) state.isNested []
        rw [List.append_nil] at reads
        exact reads.foldl_eq begun rfl
      rw [added, (State.Steps.skip (blanks.pre_of_outside begun) (.inl isSpace)).step_eq]
      refine blanks.quiet ⟨rfl, ⟨_, rfl, fun node present => ?_⟩, [], rfl, nofun⟩
        (quiet_pre other other.pre) blanks.pre
      obtain ⟨text, span, rfl⟩ := exists_comment_of_mem_commentsOf (List.mem_reverse.mp present)
      rfl
  | some pre =>
      obtain ⟨otherPre, inside, condenses⟩ := blanks.exists_pre begun
      rw [(State.Steps.continues inside (by rw [isSpace]; rfl)).step_eq,
        foldl_of_runs begun (runs_of_gaps areGaps _)]
      exact ⟨blanks.blocks, blanks.nodes,
        .some (condenses.pushTrivia areGaps nonempty becomes)⟩

/-- Both states take in tokens, in one of them with whitespace for runs of trivia. -/
theorem State.Blanks.foldl
    {state other : State}
    {tokens words : List Token}
    (blanks : state.Blanks width other)
    (condenses : Lexer.Condenses width (tokens.map Token.lexeme) (words.map Token.lexeme))
    (lexed : Lexed (state.read ++ tokens)) :
    (tokens.foldl State.step state).Blanks width (words.foldl State.step other) := by
  generalize lexemes : tokens.map Token.lexeme = left at condenses
  generalize lexemesToo : words.map Token.lexeme = right at condenses
  induction condenses generalizing state other tokens words with
  | nil =>
      rw [List.map_eq_nil_iff.mp lexemes, List.map_eq_nil_iff.mp lexemesToo]
      exact blanks
  | solid isSolid _ inductionHypothesis =>
      obtain ⟨token, rest, rfl, isFirst, isRest⟩ := List.map_eq_cons_iff.mp lexemes
      obtain ⟨word, others, rfl, isFirstToo, isRestToo⟩ := List.map_eq_cons_iff.mp lexemesToo
      subst isFirst
      have taken := blanks.step lexed.parts.1 isFirstToo.symm isSolid
      obtain ⟨passed, split⟩ := read_step state token
      rw [List.foldl_cons, List.foldl_cons]
      refine inductionHypothesis taken ?_ isRest isRestToo
      rw [List.append_cons, ← split, List.append_assoc] at lexed
      exact lexed.parts.2
  | run areGaps nonempty _ inductionHypothesis =>
      obtain ⟨trivia, rest, rfl, isFront, isRest⟩ := List.map_eq_append_iff.mp lexemes
      obtain ⟨space, others, rfl, becomes, isRestToo⟩ := List.map_eq_cons_iff.mp lexemesToo
      subst isFront
      have taken := blanks.trivia
        (fun token present => areGaps token.lexeme (List.mem_map_of_mem present))
        (fun empty => nonempty (List.map_eq_nil_iff.mpr empty)) becomes
      obtain ⟨passed, split⟩ := read_foldl state trivia
      rw [List.foldl_append, List.foldl_cons]
      refine inductionHypothesis taken ?_ isRest isRestToo
      rw [← List.append_assoc, ← split, List.append_assoc] at lexed
      exact lexed.parts.2

/-! ## Whole texts -/

/-- Closing the open blocks in both keeps the selectors. -/
theorem NodesBlank.closeAll
    {blocks others : List OpenBlock}
    {nodes more : List Node}
    (blanks : List.Forall₂ (OpenBlock.Blanks width) blocks others)
    (within : NodesBlank width nodes more)
    (finish otherFinish : Span)
    (faults otherFaults : List Fault) :
    Exported.selectorsAll (State.closeAll otherFinish others more otherFaults).1 =
      (Exported.selectorsAll (State.closeAll finish blocks nodes faults).1).map
        (blankComments width) := by
  induction blanks generalizing nodes more faults otherFaults with
  | nil => exact within
  | cons first _ inductionHypothesis =>
      rw [State.closeAll, State.closeAll]
      exact inductionHypothesis
        (first.before.cons (first.header.selectorsOf within finish otherFinish)) _ _

/-- The selectors of a text with spaces for its comments are those of the text, with
spaces for the comments in them. -/
theorem selectorsAll_parse_blankComments
    (wide : ∀ text, text.length ≤ width text)
    (source : Text) :
    Exported.selectorsAll (parse (blankComments width source)).sheet.nodes =
      (Exported.selectorsAll (parse source).sheet.nodes).map (blankComments width) := by
  have condenses : Lexer.Condenses width ((tokens .css source).map Token.lexeme)
      ((tokens .css (blankComments width source)).map Token.lexeme) := by
    unfold tokens
    rw [Lexeme.map_lexeme_place, Lexeme.map_lexeme_place]
    exact condenses_lexemes wide source
  have start : State.start.Blanks width State.start := ⟨.nil, rfl, .none⟩
  have ended := (start.foldl condenses (lexed_tokens source)).endSource
  exact NodesBlank.closeAll ended.blocks ended.nodes _ _ _ _

end Parser
end StyleTypings
