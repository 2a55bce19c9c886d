import Mathlib.Data.List.Basic
import StyleTypings.Proofs.Stylesheet.Braces

/-!
# The walk over a forest

A walk is asked for one node after the other. It takes the node from the innermost list on its
stack, puts the block of the node on the stack if there is one, and takes lists that are used up
off the stack, so it ends when the stack is empty. What it yields are the nodes of the forest in
the order of the recursion over it.

A node has an address: its place among the nodes around it, behind the places of the nodes that it
lies in. Addresses in lexicographic order are in document order, a node before what it holds and
that before what follows.
-/

namespace StyleTypings

/-! ## Steps of a walk -/

/-- The nodes in the block of a node, if it has one. -/
def Node.block? : Node → Option (List Node)
  | .rule _ _ _ nodes => some nodes
  | .atBlock _ _ _ _ nodes => some nodes
  | _ => none

namespace Walk

/-- Puts the block of a node on the stack, if it has one. -/
def enter (node : Node) (walk : Walk) : Walk :=
  match node.block? with
  | some nodes => nodes :: walk
  | none => walk

/-- The next node of a walk, if there is one, and what is left of the walk. Lists that are used up
are taken off the stack. -/
def next : Walk → Option Node × Walk
  | [] => (none, [])
  | [] :: rest => next rest
  | (node :: siblings) :: rest => (some node, enter node (siblings :: rest))

/-- What a walk yields when it is asked for a node again and again, counted from 0. -/
def yielded (walk : Walk) : Nat → Option Node
  | 0 => walk.next.1
  | number + 1 => yielded walk.next.2 number

/-- A node without a block is left as one whose block is empty. -/
theorem visits_enter (node : Node) (walk : Walk) :
    (enter node walk).visits = visits (node.children :: walk) := by
  cases node with
  | rule | atBlock => rfl
  | atStatement | declaration | comment =>
      change walk.visits = visits ([] :: walk)
      rw [visits]

/-- A walk that is asked for a node yields the first that it visits, or it has ended. -/
theorem next_cases (walk : Walk) :
    (walk.next = (none, []) ∧ walk.visits = []) ∨
      ∃ node later, walk.next = (some node, later) ∧ walk.visits = node :: later.visits := by
  fun_induction next walk with
  | case1 => exact .inl ⟨rfl, by rw [visits]⟩
  | case2 rest inductionHypothesis =>
      rw [visits]
      exact inductionHypothesis
  | case3 node siblings rest =>
      exact .inr ⟨node, _, rfl, by rw [visits, visits_enter]⟩

/-- A walk yields the nodes that it visits, one after the other, and then none any more. -/
theorem yielded_eq (walk : Walk) (number : Nat) : walk.yielded number = walk.visits[number]? := by
  -- One call takes the first of the nodes to be visited, and where there is none the walk goes on
  -- with the empty stack.
  induction number generalizing walk with
  | zero =>
      rw [yielded]
      rcases walk.next_cases with ⟨ended, nothing⟩ | ⟨node, later, yields, visited⟩
      · rw [ended, nothing]
        rfl
      · rw [yields, visited]
        rfl
  | succ number inductionHypothesis =>
      rw [yielded, inductionHypothesis]
      rcases walk.next_cases with ⟨ended, nothing⟩ | ⟨node, later, yields, visited⟩
      · rw [ended, nothing, visits]
        rfl
      · rw [yields, visited, List.getElem?_cons_succ]

end Walk

/-! ## Addresses -/

namespace Node

/-- The node at an address in a forest. -/
def nodeAt? (nodes : List Node) : List Nat → Option Node
  | [] => none
  | [place] => nodes[place]?
  | place :: next :: below =>
      nodes[place]?.bind fun node => nodeAt? node.children (next :: below)

mutual

/-- The addresses in the block of a node. -/
def addressesIn : Node → List (List Nat)
  | .rule _ _ _ nodes => addressesAll nodes
  | .atBlock _ _ _ _ nodes => addressesAll nodes
  | _ => []

/-- The addresses in a forest in document order. -/
def addressesAll : List Node → List (List Nat)
  | [] => []
  | node :: rest =>
      [0] :: (node.addressesIn.map (0 :: ·) ++ (addressesAll rest).map (List.modifyHead (· + 1)))

end

theorem addressesAll_cons (node : Node) (rest : List Node) :
    addressesAll (node :: rest) =
      [0] :: ((addressesAll node.children).map (0 :: ·) ++
        (addressesAll rest).map (List.modifyHead (· + 1))) := by
  rw [addressesAll]
  cases node <;> rfl

/-- Forests from the back, with what a node holds before the node. -/
theorem childrenInduction
    {motive : List Node → Prop}
    (nil : motive [])
    (cons : ∀ node rest, motive node.children → motive rest → motive (node :: rest)) :
    ∀ nodes, motive nodes := by
  intro nodes
  induction nodes using forestInduction with
  | nil => exact nil
  | leaf node rest leaf inductionHypothesis =>
      apply cons node rest _ inductionHypothesis
      rw [children_eq_nil leaf]
      exact nil
  | block node rest _ childrenHypothesis restHypothesis =>
      exact cons node rest childrenHypothesis restHypothesis

theorem ne_nil_of_mem_addressesAll
    {nodes : List Node}
    {address : List Nat}
    (present : address ∈ addressesAll nodes) :
    address ≠ [] := by
  rintro rfl
  induction nodes with
  | nil => exact absurd present nofun
  | cons node rest inductionHypothesis =>
      rw [addressesAll_cons] at present
      rcases List.mem_cons.mp present with first | later
      · exact absurd first nofun
      · rcases List.mem_append.mp later with inside | behind
        · obtain ⟨below, -, made⟩ := List.mem_map.mp inside
          exact absurd made nofun
        · obtain ⟨address, among, made⟩ := List.mem_map.mp behind
          rw [List.modifyHead_eq_nil_iff] at made
          exact inductionHypothesis (made ▸ among)

/-! ## Nodes at addresses -/

section NodeAt

variable (node : Node) (rest : List Node)

theorem nodeAt?_below {below : List Nat} (isBelow : below ≠ []) :
    nodeAt? (node :: rest) (0 :: below) = nodeAt? node.children below := by
  obtain ⟨next, more, rfl⟩ := List.exists_cons_of_ne_nil isBelow
  rfl

theorem nodeAt?_modifyHead (address : List Nat) :
    nodeAt? (node :: rest) (address.modifyHead (· + 1)) = nodeAt? rest address := by
  match address with
  | [] => rfl
  | [place] => rfl
  | place :: next :: below => rfl

end NodeAt

/-- The nodes at the addresses of a forest are its nodes in the order of the recursion. -/
theorem map_nodeAt?_addressesAll (nodes : List Node) :
    (addressesAll nodes).map (nodeAt? nodes) = (preorderAll nodes).map some := by
  induction nodes using childrenInduction with
  | nil => rfl
  | cons node rest childrenHypothesis restHypothesis =>
      have inside : (addressesAll node.children).map
          (fun below => nodeAt? (node :: rest) (0 :: below)) =
            (preorderAll node.children).map some := by
        rw [← childrenHypothesis]
        exact List.map_congr_left fun below present =>
          nodeAt?_below node rest (ne_nil_of_mem_addressesAll present)
      have behind : (addressesAll rest).map
          (fun address => nodeAt? (node :: rest) (address.modifyHead (· + 1))) =
            (preorderAll rest).map some := by
        rw [← restHypothesis]
        exact List.map_congr_left fun address _ => nodeAt?_modifyHead node rest address
      rw [addressesAll_cons, preorderAll_cons, List.map_cons, List.map_append, List.map_map,
        List.map_map, List.map_cons, List.map_append]
      exact congrArg₂ List.cons rfl (congrArg₂ List.append inside behind)

theorem getElem?_preorderAll (nodes : List Node) (number : Nat) :
    (preorderAll nodes)[number]? = (addressesAll nodes)[number]?.bind (nodeAt? nodes) := by
  have found : ((addressesAll nodes)[number]?).map (nodeAt? nodes) =
      ((preorderAll nodes)[number]?).map some := by
    rw [← List.getElem?_map, ← List.getElem?_map, map_nodeAt?_addressesAll]
  cases listed : (addressesAll nodes)[number]? with
  | none =>
      rw [listed] at found
      exact Option.map_eq_none_iff.mp found.symm
  | some address =>
      rw [listed] at found
      obtain ⟨node, present, same⟩ := Option.map_eq_some_iff.mp found.symm
      exact present.trans same

section Membership

variable {node : Node} {rest : List Node} {place : Nat} {below : List Nat}

theorem zero_cons_mem_addressesAll_iff :
    0 :: below ∈ addressesAll (node :: rest) ↔
      below = [] ∨ below ∈ addressesAll node.children := by
  rw [addressesAll_cons, List.mem_cons, List.mem_append, List.mem_map, List.mem_map]
  constructor
  · rintro (first | ⟨other, present, made⟩ | ⟨address, -, made⟩)
    · exact .inl (List.cons.inj first).2
    · exact .inr ((List.cons.inj made).2 ▸ present)
    · cases address with
      | nil => exact absurd made nofun
      | cons place => exact absurd (List.cons.inj made).1 (Nat.succ_ne_zero place)
  · rintro (rfl | present)
    · exact .inl rfl
    · exact .inr (.inl ⟨below, present, rfl⟩)

theorem succ_cons_mem_addressesAll_iff :
    (place + 1) :: below ∈ addressesAll (node :: rest) ↔ place :: below ∈ addressesAll rest := by
  rw [addressesAll_cons, List.mem_cons, List.mem_append, List.mem_map, List.mem_map]
  constructor
  · rintro (first | ⟨other, -, made⟩ | ⟨address, present, made⟩)
    · exact absurd (List.cons.inj first).1 (Nat.succ_ne_zero place)
    · exact absurd (List.cons.inj made).1.symm (Nat.succ_ne_zero place)
    · cases address with
      | nil => exact absurd made nofun
      | cons other more =>
          obtain ⟨samePlace, sameBelow⟩ := List.cons.inj made
          rwa [← Nat.succ.inj samePlace, ← sameBelow]
  · exact fun present => .inr (.inr ⟨_, present, rfl⟩)

end Membership

/-- The addresses of a forest are those at which it has a node. -/
theorem mem_addressesAll_iff {nodes : List Node} {address : List Nat} :
    address ∈ addressesAll nodes ↔ (nodeAt? nodes address).isSome := by
  induction nodes using childrenInduction generalizing address with
  | nil =>
      refine iff_of_false nofun ?_
      match address with
      | [] => exact nofun
      | [place] => exact nofun
      | place :: next :: below => exact nofun
  | cons node rest childrenHypothesis restHypothesis =>
      match address with
      | [] => exact iff_of_false (fun present => ne_nil_of_mem_addressesAll present rfl) nofun
      | [0] => exact iff_of_true (zero_cons_mem_addressesAll_iff.mpr (.inl rfl)) rfl
      | 0 :: next :: below =>
          rw [zero_cons_mem_addressesAll_iff, nodeAt?_below node rest (List.cons_ne_nil next below),
            ← childrenHypothesis]
          exact or_iff_right (List.cons_ne_nil next below)
      | (place + 1) :: below =>
          rw [succ_cons_mem_addressesAll_iff, restHypothesis,
            ← nodeAt?_modifyHead node rest (place :: below)]
          rfl

/-! ## Document order -/

theorem modifyHead_lt_modifyHead
    {left right : List Nat}
    (before : left < right) :
    left.modifyHead (· + 1) < right.modifyHead (· + 1) := by
  cases left with
  | nil =>
      cases right with
      | nil => exact absurd before (List.not_lt_nil [])
      | cons => exact List.nil_lt_cons _ _
  | cons place below =>
      cases right with
      | nil => exact absurd before (List.not_lt_nil _)
      | cons place' below' =>
          rw [List.modifyHead_cons, List.modifyHead_cons, List.cons_lt_cons_iff]
          rcases List.cons_lt_cons_iff.mp before with earlier | ⟨same, inside⟩
          · exact .inl (Nat.succ_lt_succ earlier)
          · exact .inr ⟨congrArg Nat.succ same, inside⟩

/-- The addresses of a forest ascend, so there is none twice. -/
theorem ascend_addressesAll (nodes : List Node) : (addressesAll nodes).Pairwise (· < ·) := by
  induction nodes using childrenInduction with
  | nil => exact .nil
  | cons node rest childrenHypothesis restHypothesis =>
      -- What a node holds comes behind the node, and the nodes beside it come behind both.
      have inside {below : List Nat} (present : below ∈ addressesAll node.children) :
          [0] < 0 :: below := by
        obtain ⟨next, more, rfl⟩ := List.exists_cons_of_ne_nil (ne_nil_of_mem_addressesAll present)
        exact List.cons_lt_cons_iff.mpr (.inr ⟨rfl, List.nil_lt_cons next more⟩)
      have behind {below address : List Nat} (present : address ∈ addressesAll rest) :
          0 :: below < address.modifyHead (· + 1) := by
        obtain ⟨place, more, rfl⟩ := List.exists_cons_of_ne_nil (ne_nil_of_mem_addressesAll present)
        exact List.cons_lt_cons_iff.mpr (.inl (Nat.succ_pos place))
      rw [addressesAll_cons]
      refine List.pairwise_cons.mpr ⟨?_, List.pairwise_append.mpr ⟨?_, ?_, ?_⟩⟩
      · intro address later
        rcases List.mem_append.mp later with among | among
        · obtain ⟨below, present, rfl⟩ := List.mem_map.mp among
          exact inside present
        · obtain ⟨address, present, rfl⟩ := List.mem_map.mp among
          exact behind present
      · apply List.Pairwise.map _ _ childrenHypothesis
        exact fun left right before => List.cons_lt_cons_iff.mpr (.inr ⟨rfl, before⟩)
      · apply List.Pairwise.map _ _ restHypothesis
        exact fun left right before => modifyHead_lt_modifyHead before
      · intro left fromInside right fromBehind
        obtain ⟨below, -, rfl⟩ := List.mem_map.mp fromInside
        obtain ⟨address, present, rfl⟩ := List.mem_map.mp fromBehind
        exact behind present

example :
    addressesAll
        [ .atBlock "media" "print" ⟨0, 24⟩ ⟨0, 24⟩ [.rule ".a" ⟨15, 17⟩ ⟨15, 22⟩ []],
          .comment "/**/" ⟨25, 29⟩ ] =
      [[0], [0, 0], [1]] := rfl

end Node
end StyleTypings
