import StyleTypings.Classes.Exported
import StyleTypings.Proofs.Stylesheet.Faultless

/-!
# Outlines

The outline of a forest is what is left of it without the places of its nodes: their
kinds, texts and nesting. It depends on the lexemes only that the forest was read
from, so tokens that stand elsewhere read as nodes of the same outline.
-/

namespace StyleTypings

/-- A node of the rule tree without its place. -/
inductive Outline
  | rule (selector : Text) (nodes : List Outline)
  | atBlock (name params : Text) (nodes : List Outline)
  | atStatement (name params : Text)
  | declaration (property value : Text)
  | comment (text : Text)

namespace Node

mutual

/-- A node and everything below it without their places. -/
def outline : Node → Outline
  | .rule selector _ _ nodes => .rule selector (outlineAll nodes)
  | .atBlock name params _ _ nodes => .atBlock name params (outlineAll nodes)
  | .atStatement name params _ _ => .atStatement name params
  | .declaration property value _ => .declaration property value
  | .comment text _ => .comment text

/-- The nodes of a forest without their places. -/
def outlineAll : List Node → List Outline
  | [] => []
  | node :: rest => node.outline :: outlineAll rest

end

theorem outlineAll_eq_map (nodes : List Node) : outlineAll nodes = nodes.map outline := by
  induction nodes with
  | nil => rfl
  | cons node rest inductionHypothesis => rw [outlineAll, inductionHypothesis, List.map_cons]

@[simp] theorem outlineAll_nil : outlineAll [] = [] := rfl

@[simp] theorem outlineAll_cons (node : Node) (rest : List Node) :
    outlineAll (node :: rest) = node.outline :: outlineAll rest := rfl

@[simp] theorem outlineAll_append (front back : List Node) :
    outlineAll (front ++ back) = outlineAll front ++ outlineAll back := by
  simp only [outlineAll_eq_map, List.map_append]

end Node

namespace Outline

/-! ## Comments -/

/-- Whether an outline is that of a comment. -/
def isComment : Outline → Bool
  | .comment _ => true
  | _ => false

/-- Outlines outside all blocks but the comments. -/
def withoutComments (outlines : List Outline) : List Outline :=
  outlines.filter fun outline => !outline.isComment

@[simp] theorem withoutComments_append (front back : List Outline) :
    withoutComments (front ++ back) = withoutComments front ++ withoutComments back :=
  List.filter_append _ _

theorem withoutComments_outlineAll_eq_nil
    {nodes : List Node}
    (areComments : ∀ node ∈ nodes, ∃ text span, node = .comment text span) :
    withoutComments (Node.outlineAll nodes) = [] := by
  refine List.filter_eq_nil_iff.mpr fun outline present => ?_
  rw [Node.outlineAll_eq_map] at present
  obtain ⟨node, among, rfl⟩ := List.mem_map.mp present
  obtain ⟨text, span, rfl⟩ := areComments node among
  exact Bool.false_ne_true

/-! ## Classes -/

mutual

/-- The local classes of an outline, with repetitions. -/
def classes : Outline → List Text
  | .rule selector nodes => Selector.classes selector ++ classesAll nodes
  | .atBlock name _ nodes => if isKeyframesName name then [] else classesAll nodes
  | _ => []

/-- The local classes of some outlines, with repetitions. -/
def classesAll : List Outline → List Text
  | [] => []
  | outline :: rest => outline.classes ++ classesAll rest

end

@[simp] theorem classesAll_append (front back : List Outline) :
    classesAll (front ++ back) = classesAll front ++ classesAll back := by
  induction front with
  | nil => rfl
  | cons outline rest inductionHypothesis =>
      rw [List.cons_append, classesAll, inductionHypothesis, classesAll, List.append_assoc]

/-- Comments have no classes. -/
theorem classesAll_withoutComments (outlines : List Outline) :
    classesAll (withoutComments outlines) = classesAll outlines := by
  induction outlines with
  | nil => rfl
  | cons outline rest inductionHypothesis =>
      rw [← List.singleton_append, withoutComments_append, classesAll_append,
        classesAll_append, inductionHypothesis]
      cases outline <;> simp [withoutComments, isComment, classesAll, classes]

mutual

/-- The classes of a node are those of its outline. -/
theorem classes_outline : (node : Node) → node.outline.classes = Exported.ofNode node
  | .rule selector _ _ nodes => by
      rw [Node.outline, classes, classesAll_outlineAll nodes, Exported.ofNode]
  | .atBlock name _ _ _ nodes => by
      rw [Node.outline, classes, classesAll_outlineAll nodes, Exported.ofNode]
  | .atStatement _ _ _ _ => rfl
  | .declaration _ _ _ => rfl
  | .comment _ _ => rfl

theorem classesAll_outlineAll :
    (nodes : List Node) → classesAll (Node.outlineAll nodes) = Exported.ofForest nodes
  | [] => rfl
  | node :: rest => by
      rw [Node.outlineAll, classesAll, classes_outline node, classesAll_outlineAll rest,
        Exported.ofForest]

end

end Outline

theorem Exported.ofForest_append (front back : List Node) :
    ofForest (front ++ back) = ofForest front ++ ofForest back := by
  rw [← Outline.classesAll_outlineAll, Node.outlineAll_append, Outline.classesAll_append,
    Outline.classesAll_outlineAll, Outline.classesAll_outlineAll]

namespace Parser

/-! ## The same lexemes elsewhere -/

/-- The outline of the node that a header becomes around some outlines. -/
def Header.outline : Header → List Outline → Outline
  | .selector text _ => .rule text
  | .atRule keyword params _ => .atBlock (keywordName keyword) params

@[simp] theorem outline_toNode (header : Header) (nodes : List Node) (close : Span) :
    (header.toNode nodes close).outline = header.outline (Node.outlineAll nodes) := by
  cases header <;> rfl

theorem exists_cons_of_map_lexeme_eq
    {token : Token}
    {rest others : List Token}
    (same : (token :: rest).map Token.lexeme = others.map Token.lexeme) :
    ∃ other restToo, others = other :: restToo ∧ token.lexeme = other.lexeme ∧
      rest.map Token.lexeme = restToo.map Token.lexeme := by
  obtain ⟨other, restToo, rfl, first, later⟩ := List.map_eq_cons_iff.mp same.symm
  exact ⟨other, restToo, rfl, first.symm, later.symm⟩

/-- Tokens of the same lexemes fall into the same parts around a token. -/
theorem exists_split_of_map_lexeme_eq
    {token : Token}
    {front back others : List Token}
    (same : (front ++ token :: back).map Token.lexeme = others.map Token.lexeme) :
    ∃ frontToo other backToo, others = frontToo ++ other :: backToo ∧
      front.map Token.lexeme = frontToo.map Token.lexeme ∧ token.lexeme = other.lexeme ∧
        back.map Token.lexeme = backToo.map Token.lexeme := by
  obtain ⟨frontToo, after, rfl, sameFront, sameAfter⟩ :=
    List.map_eq_append_iff.mp (same.symm.trans List.map_append)
  obtain ⟨other, backToo, rfl, sameToken, sameBack⟩ := exists_cons_of_map_lexeme_eq sameAfter.symm
  exact ⟨frontToo, other, backToo, rfl, sameFront.symm, sameToken, sameBack⟩

/-- Of two tokens of the same lexeme that may be missing, both are there or neither is. -/
theorem missing_or_exists_of_map_lexeme_eq
    {left right : Option Token}
    (same : left.map Token.lexeme = right.map Token.lexeme) :
    left = none ∧ right = none ∨
      ∃ token other, left = some token ∧ right = some other ∧ token.lexeme = other.lexeme := by
  cases left with
  | none => exact .inl ⟨rfl, Option.map_eq_none_iff.mp same.symm⟩
  | some token =>
      obtain ⟨other, isRight, sameLexeme⟩ := Option.map_eq_some_iff.mp same.symm
      exact .inr ⟨token, other, rfl, isRight, sameLexeme.symm⟩

theorem nesting_of_map_lexeme_eq
    {left right : List Token}
    (same : left.map Token.lexeme = right.map Token.lexeme)
    (depth : Nat) :
    nesting depth left = nesting depth right := by
  have measured (tokens : List Token) : nesting depth tokens =
      (tokens.map Token.lexeme).foldl (fun depth lexeme => lexeme.kind.depthAfter depth) depth := by
    rw [List.foldl_map]
    rfl
  rw [measured, measured, same]

theorem Runs.of_map_lexeme_eq
    {left right : List Token}
    {depth : Nat}
    (runs : Runs depth left)
    (same : left.map Token.lexeme = right.map Token.lexeme) :
    Runs depth right := by
  induction left generalizing right depth with
  | nil =>
      rw [List.map_eq_nil_iff.mp same.symm]
      trivial
  | cons token rest inductionHypothesis =>
      obtain ⟨other, others, rfl, first, later⟩ := exists_cons_of_map_lexeme_eq same
      have kind : token.kind = other.kind := congrArg Lexeme.kind first
      obtain ⟨continues, runsOn⟩ := runs
      rw [kind] at continues runsOn
      exact ⟨continues, inductionHypothesis runsOn later⟩

theorem IsPrelude.of_map_lexeme_eq
    {left right : List Token}
    (isPrelude : IsPrelude left)
    (same : left.map Token.lexeme = right.map Token.lexeme) :
    IsPrelude right := by
  cases left with
  | nil => exact isPrelude.elim
  | cons token rest =>
      obtain ⟨other, others, rfl, first, -⟩ := exists_cons_of_map_lexeme_eq same
      have kind : token.kind = other.kind := congrArg Lexeme.kind first
      obtain ⟨begins, runs⟩ := isPrelude
      rw [kind] at begins
      exact ⟨begins, runs.of_map_lexeme_eq same⟩

/-- Two preludes have the same lexemes. -/
structure Prelude.Alike (left right : Prelude) : Prop where
  keyword : left.keyword.map Token.lexeme = right.keyword.map Token.lexeme
  reversed : left.reversed.map Token.lexeme = right.reversed.map Token.lexeme

namespace Prelude

theorem alike_ofTokens
    {left right : List Token}
    (same : left.map Token.lexeme = right.map Token.lexeme) :
    (ofTokens left).Alike (ofTokens right) := by
  cases left with
  | nil =>
      rw [List.map_eq_nil_iff.mp same.symm]
      exact ⟨rfl, rfl⟩
  | cons token rest =>
      obtain ⟨other, others, rfl, first, later⟩ := exists_cons_of_map_lexeme_eq same
      have kind : token.kind = other.kind := congrArg Lexeme.kind first
      rw [ofTokens, ofTokens, kind]
      split
      · refine ⟨congrArg some first, ?_⟩
        rw [List.map_reverse, List.map_reverse, later]
      · refine ⟨rfl, ?_⟩
        rw [List.map_reverse, List.map_reverse, same]

theorem map_lexeme_content (pre : Prelude) :
    pre.content.map Token.lexeme =
      (((pre.reversed.map Token.lexeme).dropWhile (·.kind.isTrivia)).reverse).dropWhile
        (·.kind.isTrivia) := by
  rw [List.dropWhile_map, ← List.map_reverse, List.dropWhile_map]
  rfl

namespace Alike

variable {left right : Prelude}

theorem content (alike : left.Alike right) :
    left.content.map Token.lexeme = right.content.map Token.lexeme := by
  rw [map_lexeme_content, map_lexeme_content, alike.reversed]

theorem text (alike : left.Alike right) : left.text = right.text := by
  unfold Prelude.text
  rw [← Token.flatMap_text_map_lexeme, alike.content, Token.flatMap_text_map_lexeme]

/-- Both preludes have content or neither has. -/
theorem exists_span
    {span : Span}
    (alike : left.Alike right)
    (covered : left.span? = some span) :
    ∃ other, right.span? = some other := by
  have same := alike.content
  obtain ⟨first, rest, content, -⟩ := exists_content_of_span? covered
  rw [content] at same
  obtain ⟨other, others, contentToo, -⟩ := exists_cons_of_map_lexeme_eq same
  exact ⟨_, span?_of_content contentToo⟩

theorem keywordName_eq
    {keyword other : Token}
    (same : keyword.lexeme = other.lexeme) :
    keywordName keyword = keywordName other := by
  unfold keywordName
  rw [show keyword.text = other.text from congrArg Lexeme.text same]

/-- What one prelude is without a block, the other is as well. -/
theorem exists_statement?
    {nested : Bool}
    {semicolon : Option Span}
    {node : Node}
    (alike : left.Alike right)
    (isStatement : left.statement? nested semicolon = some node)
    (other : Option Span) :
    ∃ moved, right.statement? nested other = some moved ∧ moved.outline = node.outline := by
  unfold statement? at isStatement ⊢
  obtain ⟨keyword, keywordToo⟩ | ⟨word, wordToo, keyword, keywordToo, sameWord⟩ :=
    missing_or_exists_of_map_lexeme_eq alike.keyword
  · simp only [keyword] at isStatement
    split at isStatement
    · next span property value covered split =>
        obtain rfl := Option.some.inj isStatement
        obtain ⟨otherSpan, coveredToo⟩ := alike.exists_span covered
        rw [alike.text] at split
        simp only [keywordToo, coveredToo, split]
        exact ⟨_, rfl, rfl⟩
    · exact absurd isStatement nofun
  · rw [keyword] at isStatement
    obtain rfl := Option.some.inj isStatement
    rw [keywordToo]
    refine ⟨_, rfl, ?_⟩
    rw [Node.outline, Node.outline, alike.text, keywordName_eq sameWord]

theorem outline_toHeader (alike : left.Alike right) (brace other : Token) :
    (left.toHeader brace).outline = (right.toHeader other).outline := by
  unfold toHeader
  obtain ⟨keyword, keywordToo⟩ | ⟨word, wordToo, keyword, keywordToo, sameWord⟩ :=
    missing_or_exists_of_map_lexeme_eq alike.keyword
  · simp only [keyword, keywordToo, Header.outline, alike.text]
  · simp only [keyword, keywordToo, Header.outline, alike.text, keywordName_eq sameWord]

end Alike
end Prelude

/-- The statement at an end reads as one of the same outline from the same lexemes. -/
theorem Ends.relocate
    {nested : Bool}
    {tokens others : List Token}
    {nodes : List Node}
    (ends : Ends nested tokens nodes)
    (same : tokens.map Token.lexeme = others.map Token.lexeme) :
    ∃ moved, Ends nested others moved ∧ Node.outlineAll moved = Node.outlineAll nodes := by
  cases ends with
  | closed =>
      rw [List.map_eq_nil_iff.mp same.symm]
      exact ⟨[], .closed, rfl⟩
  | unfinished isPrelude isStatement =>
      obtain ⟨moved, isStatementToo, outline⟩ :=
        (Prelude.alike_ofTokens same).exists_statement? isStatement none
      refine ⟨[moved], .unfinished (isPrelude.of_map_lexeme_eq same) isStatementToo, ?_⟩
      rw [Node.outlineAll_cons, Node.outlineAll_cons, outline]

/-- The same lexemes read as nodes of the same outline. -/
theorem Reads.relocate
    {nested : Bool}
    {tokens rest others : List Token}
    {nodes : List Node}
    (reads : Reads nested tokens nodes rest)
    (same : tokens.map Token.lexeme = others.map Token.lexeme) :
    ∃ moved left, Reads nested others moved left ∧
      rest.map Token.lexeme = left.map Token.lexeme ∧
        Node.outlineAll moved = Node.outlineAll nodes := by
  -- On the reading, whose constructors ask for kinds and texts of tokens but no offsets.
  induction reads generalizing others with
  | done nested tokens => exact ⟨[], others, .done nested others, same, rfl⟩
  | skip separates _ inductionHypothesis =>
      obtain ⟨token, others, rfl, first, later⟩ := exists_cons_of_map_lexeme_eq same
      obtain ⟨moved, left, reads, behind, outlines⟩ := inductionHypothesis later
      have kind := congrArg Lexeme.kind first
      exact ⟨moved, left, .skip (separates.imp kind.symm.trans kind.symm.trans) reads, behind,
        outlines⟩
  | @comment _ token _ _ _ isComment _ inductionHypothesis =>
      obtain ⟨other, others, rfl, first, later⟩ := exists_cons_of_map_lexeme_eq same
      obtain ⟨moved, left, reads, behind, outlines⟩ := inductionHypothesis later
      have kind : token.kind = other.kind := congrArg Lexeme.kind first
      have text : token.text = other.text := congrArg Lexeme.text first
      refine ⟨_, left, .comment (kind.symm.trans isComment) reads, behind, ?_⟩
      rw [Node.outlineAll_cons, Node.outlineAll_cons, outlines, Node.outline, Node.outline, text]
  | @statement _ head _ _ semicolon _ _ isPrelude level isSemicolon isStatement _
      inductionHypothesis =>
      obtain ⟨headToo, other, others, rfl, sameHead, first, later⟩ :=
        exists_split_of_map_lexeme_eq same
      obtain ⟨moved, left, reads, behind, outlines⟩ := inductionHypothesis later
      have kind : semicolon.kind = other.kind := congrArg Lexeme.kind first
      obtain ⟨node, isStatementToo, outline⟩ :=
        (Prelude.alike_ofTokens sameHead).exists_statement? isStatement (some other.span)
      rw [nesting_of_map_lexeme_eq sameHead] at level
      refine ⟨node :: moved, left, .statement (isPrelude.of_map_lexeme_eq sameHead) level
        (kind.symm.trans isSemicolon) isStatementToo reads, behind, ?_⟩
      rw [Node.outlineAll_cons, Node.outlineAll_cons, outline, outlines]
  | @block _ head body tail tokens _ brace close inner last nodes isHead isOpen _ ends isClose _
      withinHypothesis laterHypothesis =>
      obtain ⟨headToo, braceToo, bodyToo, rfl, sameHead, sameBrace, sameBody⟩ :=
        exists_split_of_map_lexeme_eq same
      obtain ⟨movedInner, left, within, sameLeft, innerOutlines⟩ := withinHypothesis sameBody
      obtain ⟨tailToo, closeToo, tokensToo, rfl, sameTail, sameClose, sameTokens⟩ :=
        exists_split_of_map_lexeme_eq sameLeft
      obtain ⟨movedLast, endsToo, lastOutlines⟩ := ends.relocate sameTail
      obtain ⟨moved, rest, reads, behind, outlines⟩ := laterHypothesis sameTokens
      have openKind : brace.kind = braceToo.kind := congrArg Lexeme.kind sameBrace
      have closeKind : close.kind = closeToo.kind := congrArg Lexeme.kind sameClose
      have isHeadToo : headToo = [] ∨ IsPrelude headToo := by
        refine isHead.imp (fun empty => ?_) fun isPrelude => isPrelude.of_map_lexeme_eq sameHead
        rw [empty, List.map_nil] at sameHead
        exact List.map_eq_nil_iff.mp sameHead.symm
      refine ⟨_, rest, .block isHeadToo (openKind.symm.trans isOpen) within endsToo
        (closeKind.symm.trans isClose) reads, behind, ?_⟩
      rw [Node.outlineAll_cons, Node.outlineAll_cons, outlines, outline_toNode, outline_toNode,
        Node.outlineAll_append, Node.outlineAll_append, innerOutlines, lastOutlines,
        (Prelude.alike_ofTokens sameHead).outline_toHeader brace braceToo]

/-- The same lexemes are read to their end as nodes of the same outline. -/
theorem ReadsAll.relocate
    {tokens others : List Token}
    {nodes : List Node}
    (reads : ReadsAll tokens nodes)
    (same : tokens.map Token.lexeme = others.map Token.lexeme) :
    ∃ moved, ReadsAll others moved ∧ Node.outlineAll moved = Node.outlineAll nodes := by
  obtain ⟨front, tail, last, reads, ends, rfl⟩ := reads
  obtain ⟨moved, left, reads, behind, outlines⟩ := reads.relocate same
  obtain ⟨movedLast, ends, lastOutlines⟩ := ends.relocate behind
  refine ⟨moved ++ movedLast, ⟨moved, left, movedLast, reads, ends, rfl⟩, ?_⟩
  rw [Node.outlineAll_append, Node.outlineAll_append, outlines, lastOutlines]

end Parser
end StyleTypings
