import StyleTypings.Stylesheet.Tree

/-!
# Walking the rule tree

A walk is a stack of node lists, innermost first. Each step takes the first node
of the innermost list that is not empty and puts the node's own block on the
stack. `Stylesheet.descendants` collects the nodes of the walk that starts with
the nodes outside every block.
-/

namespace StyleTypings

/-- The lists of nodes still to be visited, innermost first. -/
abbrev Walk :=
  List (List Node)

namespace Walk

mutual

/-- Number of nodes in a node, itself included. -/
def nodeSize : Node → Nat
  | .rule _ _ _ nodes => forestSize nodes + 1
  | .atBlock _ _ _ _ nodes => forestSize nodes + 1
  | _ => 1

/-- Number of nodes in a forest. -/
def forestSize : List Node → Nat
  | [] => 0
  | node :: rest => nodeSize node + forestSize rest

end

/-- A node is one more than what its block holds. -/
theorem nodeSize_eq (node : Node) :
    nodeSize node = forestSize node.children + 1 := by
  cases node <;> simp [nodeSize, Node.children, forestSize]

/-- Number of nodes still to be visited, and of lists that hold them. -/
def weight : Walk → Nat
  | [] => 0
  | nodes :: rest => 2 * forestSize nodes + 1 + weight rest

/-- The nodes in the order in which the walk visits them. -/
def visits : Walk → List Node
  | [] => []
  | [] :: rest => visits rest
  | (node :: siblings) :: rest =>
      node :: visits (node.children :: siblings :: rest)
  termination_by walk => weight walk
  decreasing_by
    · simp [weight, forestSize]
    · simp only [weight, forestSize, nodeSize_eq]
      omega

end Walk

namespace Stylesheet

/-- Every node, parents before children. -/
def descendants (sheet : Stylesheet) : List Node :=
  Walk.visits [sheet.nodes]

/-- The selector of each rule and the offset where the rule starts, in document
order. -/
def rules (sheet : Stylesheet) : List (Text × Nat) :=
  sheet.descendants.filterMap fun node =>
    match node with
    | .rule selector _ span _ => some (selector, span.start)
    | _ => none

end Stylesheet
end StyleTypings
