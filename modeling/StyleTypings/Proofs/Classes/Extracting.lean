import Mathlib.Data.List.Infix
import StyleTypings.Proofs.Classes.Scoping
import StyleTypings.Proofs.Stylesheet.Walking

/-!
# Which rules export classes

Classes are looked for by a recursion over the rule tree that stops at keyframes, while positions
are looked for among all rules, which a walk with a stack lists. Both go through the tree in
document order: the walk yields the node at each address of the tree once and then ends, so it
lists the rules of the recursion, in their order, and among them the rules in keyframes.
-/

namespace StyleTypings

namespace Node

/-- Whether a node is a rule. -/
def isRule : Node → Bool
  | .rule _ _ _ _ => true
  | _ => false

/-- The selector of a rule, and nothing for other nodes. -/
def selector : Node → Text
  | .rule selector _ _ _ => selector
  | _ => []

/-- The selector of a rule and the offset where the rule begins. -/
def heading (rule : Node) : Text × Nat :=
  (rule.selector, rule.span.start)

/-- The rule at an address in a forest. -/
def ruleAt? (nodes : List Node) (address : List Nat) : Option Node :=
  (nodeAt? nodes address).filter isRule

/-- Whether an address lies in keyframes: an address that it goes on from is that of keyframes. -/
def liesInKeyframes (nodes : List Node) (address : List Nat) : Bool :=
  address.dropLast.inits.any fun above => (nodeAt? nodes above).any isKeyframes

/-- The rule at an address that does not lie in keyframes. -/
def scopedRuleAt? (nodes : List Node) (address : List Nat) : Option Node :=
  if liesInKeyframes nodes address then none else ruleAt? nodes address

end Node

namespace Exported

open Node

mutual

/-- The rules in a node, itself included, whose selectors are looked through for classes. -/
def rulesOf : Node → List Node
  | .rule selector selectorSpan span nodes =>
      .rule selector selectorSpan span nodes :: rulesAll nodes
  | .atBlock name _ _ _ nodes => if isKeyframesName name then [] else rulesAll nodes
  | _ => []

/-- The rules in a forest whose selectors are looked through for classes. -/
def rulesAll : List Node → List Node
  | [] => []
  | node :: rest => rulesOf node ++ rulesAll rest

end

/-- A node is looked through itself, and then what it holds unless it is keyframes. -/
theorem rulesAll_cons (node : Node) (rest : List Node) :
    rulesAll (node :: rest) =
      [node].filter isRule ++ ((if node.isKeyframes then [] else rulesAll node.children) ++
        rulesAll rest) := by
  rw [rulesAll]
  cases node <;> rfl

/-- The selectors that are looked through are those of these rules. -/
theorem selectorsAll_eq_map (nodes : List Node) :
    selectorsAll nodes = (rulesAll nodes).map selector := by
  induction nodes using childrenInduction with
  | nil => rfl
  | cons node rest childrenHypothesis restHypothesis =>
      rw [rulesAll_cons, List.map_append, List.map_append, ← restHypothesis, selectorsAll,
        ← List.append_assoc]
      refine congrArg (· ++ selectorsAll rest) ?_
      cases node with
      | rule selector selectorSpan span nodes => exact congrArg (selector :: ·) childrenHypothesis
      | atBlock name params paramsSpan span nodes =>
          rw [selectorsOf, isKeyframes]
          split
          · rfl
          · exact childrenHypothesis
      | atStatement | declaration | comment => rfl

end Exported

namespace Node

/-! ## Addresses in keyframes -/

section Keyframes

variable (node : Node) (rest : List Node)

theorem scopedRuleAt?_first :
    scopedRuleAt? (node :: rest) [0] = if node.isRule then some node else none := by
  cases node <;> rfl

theorem liesInKeyframes_below {below : List Nat} (isBelow : below ≠ []) :
    liesInKeyframes (node :: rest) (0 :: below) =
      (node.isKeyframes || liesInKeyframes node.children below) := by
  unfold liesInKeyframes
  rw [List.dropLast_cons_of_ne_nil isBelow]
  cases below.dropLast with
  | nil => simp [nodeAt?]
  | cons place others => simp [List.any_map, nodeAt?, Function.comp_def]

theorem scopedRuleAt?_below {below : List Nat} (isBelow : below ≠ []) :
    scopedRuleAt? (node :: rest) (0 :: below) =
      if node.isKeyframes then none else scopedRuleAt? node.children below := by
  unfold scopedRuleAt? ruleAt?
  rw [liesInKeyframes_below node rest isBelow, nodeAt?_below node rest isBelow]
  cases node.isKeyframes <;> rfl

theorem liesInKeyframes_modifyHead (address : List Nat) :
    liesInKeyframes (node :: rest) (address.modifyHead (· + 1)) = liesInKeyframes rest address := by
  have fronts : (address.modifyHead (· + 1)).dropLast.inits =
      address.dropLast.inits.map (List.modifyHead (· + 1)) := by
    match address with
    | [] => rfl
    | [place] => rfl
    | place :: next :: below => simp [Function.comp_def]
  unfold liesInKeyframes
  rw [fronts, List.any_map]
  exact congrArg address.dropLast.inits.any (funext fun above =>
    congrArg (Option.any isKeyframes) (nodeAt?_modifyHead node rest above))

theorem scopedRuleAt?_modifyHead (address : List Nat) :
    scopedRuleAt? (node :: rest) (address.modifyHead (· + 1)) = scopedRuleAt? rest address := by
  unfold scopedRuleAt? ruleAt?
  rw [liesInKeyframes_modifyHead, nodeAt?_modifyHead]

end Keyframes

/-- The rules that are looked through for classes are those outside keyframes. -/
theorem filterMap_scopedRuleAt?_addressesAll (nodes : List Node) :
    (addressesAll nodes).filterMap (scopedRuleAt? nodes) = Exported.rulesAll nodes := by
  induction nodes using childrenInduction with
  | nil => rfl
  | cons node rest childrenHypothesis restHypothesis =>
      have first : [[0]].filterMap (scopedRuleAt? (node :: rest)) = [node].filter isRule := by
        rw [List.filterMap_cons, scopedRuleAt?_first]
        cases node <;> rfl
      have inside : ((addressesAll node.children).map (0 :: ·)).filterMap
          (scopedRuleAt? (node :: rest)) =
            if node.isKeyframes then [] else Exported.rulesAll node.children := by
        have below : ∀ below ∈ addressesAll node.children,
            (scopedRuleAt? (node :: rest) ∘ (0 :: ·)) below =
              if node.isKeyframes then none else scopedRuleAt? node.children below :=
          fun below present => scopedRuleAt?_below node rest (ne_nil_of_mem_addressesAll present)
        rw [List.filterMap_map, List.filterMap_congr below]
        cases node.isKeyframes with
        | true => exact List.filterMap_none _
        | false => exact childrenHypothesis
      have behind : ((addressesAll rest).map (List.modifyHead (· + 1))).filterMap
          (scopedRuleAt? (node :: rest)) = Exported.rulesAll rest := by
        rw [List.filterMap_map, ← restHypothesis]
        exact congrArg (fun look => (addressesAll rest).filterMap look)
          (funext (scopedRuleAt?_modifyHead node rest))
      rw [addressesAll_cons, Exported.rulesAll_cons, ← first, ← inside, ← behind,
        ← List.filterMap_append, ← List.filterMap_append]
      rfl

/-- The rules among the nodes of a forest are those at its addresses. -/
theorem filterMap_ruleAt?_addressesAll (nodes : List Node) :
    (addressesAll nodes).filterMap (ruleAt? nodes) = (preorderAll nodes).filter isRule := by
  have found := congrArg (List.filterMap fun node? => node?.filter isRule)
    (map_nodeAt?_addressesAll nodes)
  rw [List.filterMap_map, List.filterMap_map] at found
  rw [← List.filterMap_eq_filter]
  exact found

end Node

namespace Stylesheet

open Node

theorem rules_eq (sheet : Stylesheet) :
    sheet.rules = (sheet.descendants.filter isRule).map heading := by
  unfold rules
  rw [← List.filterMap_eq_filter, List.map_filterMap]
  refine List.filterMap_congr fun node _ => ?_
  cases node <;> rfl

/-- How the walk over a style sheet goes through its rule tree. -/
structure IsWalked (sheet : Stylesheet) : Prop where
  /-- The addresses of the tree ascend, so there is none twice, -/
  ascending : (addressesAll sheet.nodes).Pairwise (· < ·)
  /-- and they are all that lead to a node. -/
  complete : ∀ address,
    address ∈ addressesAll sheet.nodes ↔ (nodeAt? sheet.nodes address).isSome
  /-- Asked again and again, the walk yields the node at each address in turn, and then none any
  more. -/
  yields : ∀ number,
    Walk.yielded [sheet.nodes] number =
      (addressesAll sheet.nodes)[number]?.bind (nodeAt? sheet.nodes)
  /-- These are the nodes in the order of the recursion, -/
  recursive : ∀ number, Walk.yielded [sheet.nodes] number = (preorderAll sheet.nodes)[number]?
  /-- and the list of all nodes is made up of them. -/
  listed : sheet.descendants = preorderAll sheet.nodes
  /-- So the rules of a style sheet are those at all addresses, -/
  rules : sheet.rules = ((addressesAll sheet.nodes).filterMap (ruleAt? sheet.nodes)).map heading
  /-- those at the addresses outside keyframes are looked through for classes, -/
  extracted : Exported.rulesAll sheet.nodes =
    (addressesAll sheet.nodes).filterMap (scopedRuleAt? sheet.nodes)
  /-- and in their order they export the classes. -/
  exported : sheet.exported =
    ((Exported.rulesAll sheet.nodes).flatMap fun rule =>
      Selector.classes rule.selector).eraseDups

/-- The walk over a style sheet is the recursion over its rule tree. -/
theorem walks (sheet : Stylesheet) : IsWalked sheet := by
  have recursive (number : Nat) :
      Walk.yielded [sheet.nodes] number = (preorderAll sheet.nodes)[number]? := by
    rw [Walk.yielded_eq, Walk.visits_eq_flatMap, List.flatMap_singleton]
  constructor
  · exact ascend_addressesAll sheet.nodes
  · exact fun address => mem_addressesAll_iff
  · intro number
    rw [recursive, getElem?_preorderAll]
  · exact recursive
  · exact sheet.descendants_eq
  · rw [rules_eq, descendants_eq, filterMap_ruleAt?_addressesAll]
  · exact (filterMap_scopedRuleAt?_addressesAll sheet.nodes).symm
  · rw [exported, Exported.ofForest_eq_flatMap, Exported.selectorsAll_eq_map, List.flatMap_map]

end Stylesheet
end StyleTypings
