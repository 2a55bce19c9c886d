import StyleTypings.Text.Span

/-!
# The rule tree

A style sheet is a forest of rules, at-rules, declarations and comments. Selector
and value texts are kept as written. An at-rule either has a block or is a
statement without one.

`Node.preorder` lists a node and everything below it, parents before children.
-/

namespace StyleTypings

/-- A node of the rule tree. -/
inductive Node
  /-- A selector with a block. -/
  | rule (selector : Text) (selectorSpan span : Span) (nodes : List Node)
  /-- An at-rule with a block. -/
  | atBlock
      (name params : Text)
      (paramsSpan span : Span)
      (nodes : List Node)
  /-- An at-rule without a block. -/
  | atStatement (name params : Text) (paramsSpan span : Span)
  /-- A property and its value. -/
  | declaration (property value : Text) (span : Span)
  /-- A comment with its delimiters. -/
  | comment (text : Text) (span : Span)
  deriving Repr, Inhabited

namespace Node

/-- The bytes of a node. -/
def span : Node → Span
  | .rule _ _ span _ => span
  | .atBlock _ _ _ span _ => span
  | .atStatement _ _ _ span => span
  | .declaration _ _ span => span
  | .comment _ span => span

/-- The nodes in a node's block; none without a block. -/
def children : Node → List Node
  | .rule _ _ _ nodes => nodes
  | .atBlock _ _ _ _ nodes => nodes
  | _ => []

mutual

/-- A node and everything below it, parents before children. -/
def preorder : Node → List Node
  | .rule selector selectorSpan span nodes =>
      .rule selector selectorSpan span nodes :: preorderAll nodes
  | .atBlock name params paramsSpan span nodes =>
      .atBlock name params paramsSpan span nodes :: preorderAll nodes
  | node => [node]

/-- All nodes of a forest, parents before children. -/
def preorderAll : List Node → List Node
  | [] => []
  | node :: rest => node.preorder ++ preorderAll rest

end

end Node

/-- Whether the name of an at-rule is that of keyframes, a vendor's included. -/
def isKeyframesName (name : Text) : Bool :=
  let lower := name.asciiLower
  lower == "keyframes" ||
    (lower.head? == some '-' && "-keyframes".toList.isSuffixOf lower)

/-- A parsed style sheet. -/
structure Stylesheet where
  /-- The nodes outside every block. -/
  nodes : List Node
  span : Span
  deriving Repr, Inhabited

end StyleTypings
