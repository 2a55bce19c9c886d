import StyleTypings.Proofs.Compile.Copying
import StyleTypings.Proofs.Stylesheet.Appending
import StyleTypings.Proofs.Stylesheet.Dividing

/-!
# What is left of a unit behind an import

A unit is read piece by piece. The bytes up to its next import are read by
themselves as the nodes up to it, and what is left behind reads as the nodes
behind. Only behind an import that the end of the unit ends may more be left than
there are nodes: the comments that the import had swallowed.
-/

namespace StyleTypings

namespace ImportRule

/-- Only at-rules are imports. -/
theorem atRule?_of_ofNode?
    {node : Node}
    {rule : ImportRule}
    (isImport : ofNode? node = some rule) :
    atRule? node ≠ none := by
  intro named
  unfold ofNode? at isImport
  rw [named] at isImport
  exact absurd isImport nofun

end ImportRule

namespace Parser

/-- A text divides where its tokens do. -/
theorem Divides.exists_texts
    {offset : Nat}
    {text : Text}
    {before after : List Node}
    {node : Node}
    {front middle back : List Token}
    (divides : Divides offset (Lexer.lexemes .css 0 text) before node after front middle back) :
    ∃ gap own rest : Text, text = gap ++ (own ++ rest) ∧
      ReadsAs gap (Node.outlineAll before) ∧
        node.span = ⟨offset + gap.byteSize, offset + gap.byteSize + own.byteSize⟩ ∧
          back = Lexeme.place node.span.stop (Lexer.lexemes .css 0 rest) := by
  have lexed : Lexer.lexemes .css 0 text =
      front.map Token.lexeme ++ (middle.map Token.lexeme ++ back.map Token.lexeme) := by
    rw [← Lexeme.map_lexeme_place offset (Lexer.lexemes .css 0 text), divides.tokens,
      List.map_append, List.map_append]
  obtain ⟨lexedFront, lexedRest⟩ := Lexer.lexemes_of_eq_append lexed
  have lexedBack := (Lexer.lexemes_of_eq_append lexedRest).2
  rw [Token.flatMap_text_map_lexeme] at lexedFront lexedBack
  refine ⟨Token.join front, Token.join middle, Token.join back, ?_,
    divides.reads.readsAs lexedFront, divides.span, ?_⟩
  · rw [← Lexer.flatMap_text_lexemes .css 0 text, lexed, List.flatMap_append,
      List.flatMap_append, Token.flatMap_text_map_lexeme, Token.flatMap_text_map_lexeme,
      Token.flatMap_text_map_lexeme]
  · have split : Lexeme.place offset (Lexer.lexemes .css 0 text) = (front ++ middle) ++ back := by
      rw [divides.tokens, List.append_assoc]
    have placed := Lexeme.eq_place_of_place_eq_append split
    rw [Token.join_append, Text.byteSize_append, ← Nat.add_assoc] at placed
    rwa [divides.span, lexedBack]

/-- Trivia reads as the comments in it, of which there are none among spaces. -/
theorem exists_readsAll_of_trivia
    {offset : Nat}
    {text : Text}
    (trivia : ∀ token ∈ Lexeme.place offset (Lexer.lexemes .css 0 text),
      token.kind.isTrivia = true) :
    ∃ comments, ReadsAll (Lexeme.place offset (Lexer.lexemes .css 0 text)) comments ∧
      (∀ node ∈ comments, ∃ text span, node = .comment text span) ∧
        (text.all Lexer.isSpace = true → comments = []) := by
  have plain : ∀ token ∈ Lexeme.place offset (Lexer.lexemes .css 0 text),
      token.kind.isPlain = true := by
    intro token present
    have isTrivia := trivia token present
    have noLineComment : token.kind ≠ .lineComment :=
      Lexer.kind_ne_lineComment_of_mem_lexemes _ (Lexeme.mem_of_mem_place present)
    cases kind : token.kind <;> simp_all [TokenKind.isTrivia, TokenKind.isPlain]
  have reads := reads_trivia plain trivia false []
  rw [List.append_nil] at reads
  refine ⟨_, ⟨_, [], [], reads, .closed, (List.append_nil _).symm⟩,
    fun node => exists_comment_of_mem_commentsOf, fun spaces => commentsOf_eq_nil ?_⟩
  intro token present isComment
  have lexed := Lexeme.mem_of_mem_place present
  obtain ⟨first, rest, begins, solid⟩ := Lexer.covers_of_mem_lexemes _ lexed
  have among : first ∈ text := by
    rw [← Lexer.flatMap_text_lexemes .css 0 text]
    refine List.mem_flatMap.mpr ⟨_, lexed, ?_⟩
    rw [begins]
    exact List.mem_cons_self
  have noSpace : Lexer.isSpace first = false :=
    solid (by rw [show token.lexeme.kind = .comment from isComment]; decide)
  rw [List.all_eq_true.mp spaces first among] at noSpace
  exact absurd noSpace.symm Bool.false_ne_true

end Parser

namespace SourceUnit

/-- The nodes of a unit outside all blocks. -/
def rules (unit : SourceUnit) : List Node :=
  (Parser.parse unit.text).sheet.nodes

/-- At the end of a unit no statement but a local import is left open. -/
def IsClosed (unit : SourceUnit) : Prop :=
  ∀ node ∈ unit.rules, node.isUnfinished = true → ImportRule.ofNode? node ≠ none

/-- Behind a local import without a semicolon there is nothing but spaces. -/
def EndsBlank (unit : SourceUnit) : Prop :=
  ∀ node ∈ unit.rules, node.isUnfinished = true → ImportRule.ofNode? node ≠ none →
    (Span.slice ⟨node.span.stop, unit.text.byteSize⟩ unit.text).all Lexer.isSpace = true

/-- What is left of a unit from an offset on reads as some nodes, with the imports
left. -/
structure Remains
    (unit : SourceUnit)
    (cursor : Nat)
    (imports : List ImportRule)
    (nodes : List Node) : Prop where
  text : ∃ before rest, unit.text = before ++ rest ∧ before.byteSize = cursor ∧
    Parser.ReadsAll (Lexeme.place cursor (Lexer.lexemes .css 0 rest)) nodes
  imports : nodes.filterMap ImportRule.ofNode? = imports
  among : ∀ node ∈ nodes, node.isUnfinished = true → node ∈ unit.rules

/-- At first everything is left. -/
theorem remains_of_ofFile
    {path : Path}
    {source : Text}
    {unit : SourceUnit}
    (parsed : ofFile path source = .ok unit) :
    unit.Remains 0 unit.imports unit.rules := by
  obtain ⟨faultless, rfl⟩ := ofFile_eq parsed
  exact ⟨⟨[], _, rfl, rfl, Parser.readsAll_parse faultless⟩, rfl, fun node present _ => present⟩

namespace Remains

variable
  {unit : SourceUnit}
  {cursor : Nat}
  {nodes : List Node}

/-- Without imports the rest of a unit is read to its end, and leaves nothing open if
the unit does. -/
theorem tail (remains : unit.Remains cursor [] nodes) :
    Parser.ReadsAllAs (Span.slice ⟨cursor, unit.text.byteSize⟩ unit.text)
        (Node.outlineAll nodes) ∧
      (unit.IsClosed →
        Parser.ReadsAs (Span.slice ⟨cursor, unit.text.byteSize⟩ unit.text)
          (Node.outlineAll nodes)) := by
  obtain ⟨before, rest, text, rfl, reads⟩ := remains.text
  have covered : Span.slice ⟨before.byteSize, unit.text.byteSize⟩ unit.text = rest := by
    rw [text]
    exact Span.slice_back before rest
  have lexed : Lexer.lexemes .css 0 rest =
      (Lexeme.place before.byteSize (Lexer.lexemes .css 0 rest)).map Token.lexeme :=
    (Lexeme.map_lexeme_place _ _).symm
  rw [covered]
  refine ⟨reads.readsAllAs lexed, fun closed => ?_⟩
  obtain ⟨front, tail, last, reads, ends, rfl⟩ := reads
  cases ends with
  | closed =>
      rw [List.append_nil]
      exact reads.readsAs lexed
  | @unfinished _ node isPrelude isStatement =>
      obtain ⟨taken, split, -⟩ := reads.exists_front
      have last : node ∈ front ++ [node] := List.mem_append_right _ (List.mem_singleton_self node)
      have unfinished :=
        (Parser.Ends.unfinished isPrelude isStatement).exists_divided split |>.1
      have noImport := List.filterMap_eq_nil_iff.mp remains.imports node last
      exact absurd noImport (closed node (remains.among node last unfinished) unfinished)

/-- What is left of a unit divides at its next import, behind which comments that it had
swallowed may be left. -/
theorem divide
    {rule : ImportRule}
    {rest : List ImportRule}
    (remains : unit.Remains cursor (rule :: rest) nodes) :
    ∃ before node after comments, nodes = before ++ node :: after ∧
      (∀ other ∈ before, ImportRule.ofNode? other = none) ∧
        ImportRule.ofNode? node = some rule ∧
          Parser.ReadsAs (Span.slice ⟨cursor, rule.span.start⟩ unit.text)
            (Node.outlineAll before) ∧
            unit.Remains rule.span.stop rest (after ++ comments) ∧
              (∀ other ∈ comments, ∃ text span, other = .comment text span) ∧
                (unit.EndsBlank → comments = []) := by
  obtain ⟨above, below, text, rfl, reads⟩ := remains.text
  obtain ⟨before, node, after, rfl, plain, isImport, later⟩ :=
    List.filterMap_eq_cons_iff.mp remains.imports
  obtain ⟨front, middle, back, divides⟩ :=
    reads.exists_divides (ImportRule.atRule?_of_ofNode? isImport)
  obtain ⟨gap, own, behind, rfl, readsGap, span, rfl⟩ := divides.exists_texts
  have covers := ImportRule.span_of_ofNode? isImport
  have stop : (above ++ (gap ++ own) : Text).byteSize = node.span.stop := by
    rw [span, Text.byteSize_append, Text.byteSize_append, Nat.add_assoc]
  have split : unit.text = (above ++ (gap ++ own)) ++ behind := by
    rw [text]
    simp only [List.append_assoc]
  have covered : Span.slice ⟨above.byteSize, node.span.start⟩ unit.text = gap := by
    rw [span, text]
    exact Span.slice_append above gap _
  rw [← covered] at readsGap
  rw [covers]
  -- The last statement may have swallowed trivia, which is left behind without it.
  rcases divides.rest with readsBehind | ⟨unfinished, rfl, trivia⟩
  · refine ⟨before, node, after, [], rfl, plain, isImport, readsGap, ?_, nofun, fun _ => rfl⟩
    rw [List.append_nil]
    refine ⟨⟨_, behind, split, stop, readsBehind⟩, later, fun other present => ?_⟩
    exact remains.among other (List.mem_append_right _ (List.mem_cons_of_mem _ present))
  · obtain ⟨comments, readsBehind, areComments, blank⟩ :=
      Parser.exists_readsAll_of_trivia trivia
    obtain rfl : [] = rest := later
    refine ⟨before, node, [], comments, rfl, plain, isImport, readsGap,
      ⟨⟨_, behind, split, stop, readsBehind⟩, ?_, ?_⟩, areComments, fun endsBlank => blank ?_⟩
    · refine List.filterMap_eq_nil_iff.mpr fun other present => ?_
      obtain ⟨text, span, rfl⟩ := areComments other present
      rfl
    · intro other present isUnfinished
      obtain ⟨text, span, rfl⟩ := areComments other present
      exact absurd isUnfinished nofun
    · have isLast : node ∈ before ++ [node] :=
        List.mem_append_right _ (List.mem_singleton_self node)
      have spaces := endsBlank node (remains.among node isLast unfinished) unfinished
        (by rw [isImport]; exact nofun)
      rwa [split, ← stop, Span.slice_back] at spaces

end Remains
end SourceUnit
end StyleTypings
