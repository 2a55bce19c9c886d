import StyleTypings.Stylesheet.Fault
import StyleTypings.Stylesheet.Lexer
import StyleTypings.Stylesheet.Tree
import StyleTypings.Text.Blank

/-!
# Parsing

The parser takes one token at a time. Its state holds the blocks that are open,
the nodes of the innermost block so far, and the prelude that is being read: the
tokens since an at-keyword, or since the first token of a selector or
declaration.

A prelude ends before a brace or before a semicolon outside parentheses. What it
is depends on what ends it: a brace opens a block, anything else makes it an
at-statement, a declaration, or an unknown word. Parsing never stops: faults are
listed and the tree holds everything that was understood. At the end of the
source the open blocks are closed from the innermost on.
-/

namespace StyleTypings
namespace Parser

/-- A run of tokens that comes before a block or makes up a statement. -/
structure Prelude where
  /-- The at-keyword in front, for an at-rule. -/
  keyword : Option Token
  /-- The tokens after it, last first. -/
  reversed : List Token
  /-- Nesting of parentheses. -/
  depth : Nat
  deriving Repr

namespace Prelude

/-- The tokens from the first to the last that is not trivia. -/
def content (pre : Prelude) : List Token :=
  let isTrivia := fun token : Token => token.kind.isTrivia
  (pre.reversed.dropWhile isTrivia).reverse.dropWhile isTrivia

/-- The bytes of the content, if there is any. -/
def span? (pre : Prelude) : Option Span :=
  match pre.content with
  | [] => none
  | first :: rest => some (first.span.through ((rest.getLastD first).span))

/-- The text of the content. -/
def text (pre : Prelude) : Text :=
  Token.join pre.content

/-- A prelude with one more token. -/
def push (pre : Prelude) (token : Token) : Prelude :=
  { pre with
    reversed := token :: pre.reversed
    depth := token.kind.depthAfter pre.depth }

end Prelude

/-- What stands in front of a block. -/
inductive Header
  | selector (text : Text) (span : Span)
  | atRule (keyword : Token) (params : Text) (paramsSpan : Span)
  deriving Repr

namespace Header

/-- Where the rule begins. -/
def span : Header → Span
  | .selector _ span => span
  | .atRule keyword _ _ => keyword.span

end Header

/-- The name of an at-keyword, without its at sign. -/
def keywordName (keyword : Token) : Text :=
  keyword.text.dropWhile (· == '@')

/-- The bytes of the params of an at-rule; none of them right after the
keyword if there are no params. -/
def paramsSpan (keyword : Token) (pre : Prelude) : Span :=
  pre.span?.getD (.empty keyword.stop)

/-- The node of a header, its block, and the bytes that close the block. -/
def Header.toNode (header : Header) (nodes : List Node) (close : Span) : Node :=
  match header with
  | .selector text span => .rule text span (span.through close) nodes
  | .atRule keyword params paramsSpan =>
      .atBlock (keywordName keyword) params paramsSpan
        (keyword.span.through close) nodes

/-- The header that a prelude becomes when a brace follows. -/
def Prelude.toHeader (pre : Prelude) (brace : Token) : Header :=
  match pre.keyword with
  | some keyword => .atRule keyword pre.text (paramsSpan keyword pre)
  | none => .selector pre.text (pre.span?.getD (.empty brace.start))

/-- An open block: its header, and the nodes before it, last first. -/
structure OpenBlock where
  header : Header
  before : List Node
  deriving Repr

/-- The state of the parser. -/
structure State where
  /-- The open blocks, innermost first. -/
  blocks : List OpenBlock
  /-- The nodes of the innermost block so far, last first. -/
  nodes : List Node
  /-- The prelude being read. -/
  pre : Option Prelude
  /-- The faults so far, last first. -/
  faults : List Fault
  deriving Repr

namespace State

/-- The state before the first token. -/
def start : State :=
  ⟨[], [], none, []⟩

/-- Adds a node to the innermost block. -/
def addNode (state : State) (node : Node) : State :=
  { state with nodes := node :: state.nodes }

/-- Adds a fault. -/
def addFault (state : State) (kind : FaultKind) (span : Span) : State :=
  { state with faults := ⟨kind, span⟩ :: state.faults }

/-- Adds the fault of a token that does not end. -/
def addInvalid (state : State) (token : Token) : State :=
  let kind :=
    if token.text.head? = some '/' then
      FaultKind.unclosedComment
    else
      FaultKind.unclosedString
  state.addFault kind token.span

/-- Opens a block. -/
def openBlock (state : State) (header : Header) : State :=
  { state with
    blocks := ⟨header, state.nodes⟩ :: state.blocks
    nodes := []
    pre := none }

/-- Closes the innermost block with the bytes that end it; outside every block
nothing happens. -/
def closeBlock (state : State) (close : Span) : State :=
  match state.blocks with
  | [] => state
  | block :: outer =>
      { state with
        blocks := outer
        nodes := block.header.toNode state.nodes.reverse close :: block.before }

/-- The first word of an unknown text, or all of it if it is blank. -/
def unknownWord (text : Text) : FaultKind :=
  .unknownWord (text.firstWord?.getD text)

/-- Ends a prelude before which no brace stands, at the bytes of a semicolon if
there is one. -/
def endStatement
    (state : State)
    (pre : Prelude)
    (semicolon : Option Span) : State :=
  let closed := { state with pre := none }
  match pre.keyword with
  | some keyword =>
      let params := paramsSpan keyword pre
      closed.addNode <|
        .atStatement (keywordName keyword) pre.text params
          (keyword.span.through (semicolon.getD params))
  | none =>
      match pre.span? with
      | none => closed
      | some span =>
          match state.blocks, Text.splitFirst? [':'] pre.text with
          | _ :: _, some (property, value) =>
              closed.addNode (.declaration property.trim value.trim span)
          | _, _ => closed.addFault (unknownWord pre.text) span

/-- Takes a token outside every prelude. -/
def stepOutside (state : State) (token : Token) : State :=
  match token.kind with
  | .whitespace | .semicolon | .endOfFile => state
  | .openBrace => state.openBlock (.selector [] (.empty token.start))
  | .closeBrace =>
      if state.blocks.isEmpty then
        state.addFault .unexpectedCloseBrace token.span
      else
        state.closeBlock token.span
  | .invalid => state.addInvalid token
  | .comment => state.addNode (.comment token.text token.span)
  | .atKeyword => { state with pre := some ⟨some token, [], 0⟩ }
  | _ => { state with pre := some (Prelude.push ⟨none, [], 0⟩ token) }

/-- Takes a token while a prelude is being read. -/
def stepInside (state : State) (pre : Prelude) (token : Token) : State :=
  match token.kind with
  | .openBrace => state.openBlock (pre.toHeader token)
  | .closeBrace => (state.endStatement pre none).stepOutside token
  | .semicolon =>
      if pre.depth = 0 then
        state.endStatement pre (some token.span)
      else
        { state with pre := some (pre.push token) }
  | .invalid => { state.addInvalid token with pre := some (pre.push token) }
  | _ => { state with pre := some (pre.push token) }

/-- Takes a token. -/
def step (state : State) (token : Token) : State :=
  match state.pre with
  | none => state.stepOutside token
  | some pre => state.stepInside pre token

/-- Closes the blocks left open at the end of the source, innermost first. -/
def closeAll
    (finish : Span) :
    List OpenBlock → List Node → List Fault → List Node × List Fault
  | [], nodes, faults => (nodes.reverse, faults.reverse)
  | block :: outer, nodes, faults =>
      closeAll finish outer
        (block.header.toNode nodes.reverse finish :: block.before)
        (⟨.unclosedBlock, block.header.span⟩ :: faults)

/-- Ends the prelude being read, if any. -/
def endSource (state : State) : State :=
  match state.pre with
  | none => state
  | some pre => state.endStatement pre none

end State

/-- A style sheet with the faults found in it. -/
structure Parsed where
  sheet : Stylesheet
  faults : List Fault
  deriving Repr

/-- The state after all tokens of a source. -/
def run (source : Text) : State :=
  ((Lexer.tokens .css source).foldl State.step State.start).endSource

/-- Parses a style sheet. -/
def parse (source : Text) : Parsed :=
  let finish := Span.empty source.byteSize
  let final := run source
  let closed := State.closeAll finish final.blocks final.nodes final.faults
  { sheet := ⟨closed.1, ⟨0, source.byteSize⟩⟩
    faults := closed.2 }

end Parser
end StyleTypings
