import Mathlib.Data.List.Basic
import Mathlib.Data.List.Nodup
import StyleTypings.Proofs.Stylesheet.Lexing
import StyleTypings.Proofs.Stylesheet.Spans

/-!
# Matching braces

`Braces` matches braces with a stack and knows nothing of style sheets. The braces
open before a token are those that enclose it.

To compare this with a forest, both are brought to one form: the blocks are numbered
in the order in which they begin, and `Lineages` holds for each of them the numbers of
the blocks around it.
-/

namespace StyleTypings

/-- Whether a token opens a block. -/
def Token.isOpen (token : Token) : Bool :=
  token.kind = .openBrace

/-- What is known of the braces among some tokens. -/
structure Braces where
  /-- The open braces that are not closed, innermost first. -/
  opened : List Token
  /-- The closing braces without an open one, in order. -/
  stray : List Token

namespace Braces

/-- Takes a token: an open brace goes on the stack, and a closing brace takes the top
of it off or has no partner. -/
def take (braces : Braces) (token : Token) : Braces :=
  match token.kind, braces.opened with
  | .openBrace, opened => { braces with opened := token :: opened }
  | .closeBrace, _ :: outer => { braces with opened := outer }
  | .closeBrace, [] => { braces with stray := braces.stray ++ [token] }
  | _, _ => braces

/-- The braces among some tokens. -/
def ofTokens (tokens : List Token) : Braces :=
  tokens.foldl take ⟨[], []⟩

theorem ofTokens_concat (tokens : List Token) (token : Token) :
    ofTokens (tokens ++ [token]) = (ofTokens tokens).take token :=
  List.foldl_append

/-- An open brace among some tokens encloses another: it is not closed where the other
one stands. -/
def Encloses (tokens : List Token) (outer inner : Token) : Prop :=
  ∃ front back, tokens = front ++ inner :: back ∧ outer ∈ (ofTokens front).opened

end Braces

/-! ## Lineages -/

/-- Blocks numbered in the order in which they begin. -/
structure Lineages where
  /-- For each block the numbers of those around it, innermost first. -/
  found : List (List Nat)
  /-- The numbers of the blocks still open, innermost first. -/
  above : List Nat

namespace Lineages

/-- No block has begun. -/
def start : Lineages :=
  ⟨[], []⟩

/-- A block begins. -/
def enter (lineages : Lineages) : Lineages :=
  ⟨lineages.found ++ [lineages.above], lineages.found.length :: lineages.above⟩

/-- The innermost block ends, if there is one. -/
def leave (lineages : Lineages) : Lineages :=
  ⟨lineages.found, lineages.above.tail⟩

/-- Takes a token. -/
def take (lineages : Lineages) (token : Token) : Lineages :=
  match token.kind with
  | .openBrace => lineages.enter
  | .closeBrace => lineages.leave
  | _ => lineages

/-- The blocks that the braces among some tokens open. -/
def ofTokens (tokens : List Token) : Lineages :=
  tokens.foldl take start

theorem ofTokens_concat (tokens : List Token) (token : Token) :
    ofTokens (tokens ++ [token]) = (ofTokens tokens).take token :=
  List.foldl_append

theorem take_of_isOpen
    {token : Token}
    (isOpen : token.isOpen = true)
    (lineages : Lineages) :
    lineages.take token = lineages.enter := by
  have kind : token.kind = .openBrace := by simpa [Token.isOpen] using isOpen
  unfold take
  rw [kind]

/-- What has been found stays. -/
theorem found_prefix_take (lineages : Lineages) (token : Token) :
    lineages.found <+: (lineages.take token).found := by
  unfold take
  split
  · exact List.prefix_append _ _
  · exact List.prefix_refl _
  · exact List.prefix_refl _

theorem found_prefix_foldl (lineages : Lineages) (tokens : List Token) :
    lineages.found <+: (tokens.foldl take lineages).found := by
  induction tokens generalizing lineages with
  | nil => exact List.prefix_refl _
  | cons token rest inductionHypothesis =>
      exact (found_prefix_take lineages token).trans (inductionHypothesis _)

/-- The numbers of the blocks still open are those of the braces on the stack. -/
structure Numbers (tokens : List Token) (lineages : Lineages) (braces : Braces) : Prop where
  found : lineages.found.length = (tokens.filter Token.isOpen).length
  above : lineages.above.map (fun number => (tokens.filter Token.isOpen)[number]?) =
    braces.opened.map some

/-- Later braces leave the numbers of earlier ones. -/
theorem getElem?_append_of_map_eq
    {numbers : List Nat}
    {opens : List Token}
    {opened : List Token}
    (numbered : numbers.map (fun number => opens[number]?) = opened.map some)
    (more : List Token) :
    numbers.map (fun number => (opens ++ more)[number]?) = opened.map some := by
  rw [← numbered]
  refine List.map_congr_left fun number present => ?_
  have covered : opens[number]? ∈ opened.map some := numbered ▸ List.mem_map_of_mem present
  obtain ⟨token, -, found⟩ := List.mem_map.mp covered
  have inside : number < opens.length := (List.getElem?_eq_some_iff.mp found.symm).1
  exact List.getElem?_append_left inside

theorem Numbers.take
    {tokens : List Token}
    {lineages : Lineages}
    {braces : Braces}
    (numbers : Numbers tokens lineages braces)
    (token : Token) :
    Numbers (tokens ++ [token]) (lineages.take token) (braces.take token) := by
  have above := numbers.above
  unfold Lineages.take Braces.take
  cases kind : token.kind
  case openBrace =>
    have opens : (tokens ++ [token]).filter Token.isOpen =
        tokens.filter Token.isOpen ++ [token] := by
      rw [List.filter_append, List.filter_cons_of_pos (by simp [Token.isOpen, kind])]
      rfl
    refine ⟨?_, ?_⟩
    · rw [opens, enter, List.length_append, List.length_append, numbers.found]
      rfl
    · simp only [enter]
      rw [opens, List.map_cons, List.map_cons, getElem?_append_of_map_eq above, numbers.found,
        List.getElem?_concat_length]
  all_goals
    have opens : (tokens ++ [token]).filter Token.isOpen = tokens.filter Token.isOpen := by
      rw [List.filter_append, List.filter_cons_of_neg (by simp [Token.isOpen, kind])]
      exact List.append_nil _
  case closeBrace =>
    refine ⟨by rw [opens]; exact numbers.found, ?_⟩
    rw [opens]
    cases opened : braces.opened with
    | nil =>
        rw [opened, List.map_nil, List.map_eq_nil_iff] at above
        simp [leave, above]
    | cons top outer =>
        rw [opened] at above
        simp only [leave]
        rw [List.map_tail, above]
        rfl
  all_goals exact ⟨by rw [opens]; exact numbers.found, by rw [opens]; exact above⟩

theorem Numbers.foldl
    {tokens : List Token}
    {lineages : Lineages}
    {braces : Braces}
    (numbers : Numbers tokens lineages braces)
    (rest : List Token) :
    Numbers (tokens ++ rest) (rest.foldl Lineages.take lineages)
      (rest.foldl Braces.take braces) := by
  induction rest generalizing tokens lineages braces with
  | nil =>
      rw [List.append_nil]
      exact numbers
  | cons token rest inductionHypothesis =>
      rw [List.append_cons]
      exact inductionHypothesis (numbers.take token)

theorem numbers_ofTokens (tokens : List Token) :
    Numbers tokens (ofTokens tokens) (Braces.ofTokens tokens) := by
  have nothing : Numbers [] start ⟨[], []⟩ := ⟨rfl, rfl⟩
  exact nothing.foldl tokens

/-- Each open brace stands behind as many others as its number says. -/
theorem exists_split_of_opens
    {tokens : List Token}
    {number : Nat}
    (inside : number < (tokens.filter Token.isOpen).length) :
    ∃ front back, tokens = front ++ (tokens.filter Token.isOpen)[number] :: back ∧
      front.filter Token.isOpen = (tokens.filter Token.isOpen).take number := by
  have split : tokens.filter Token.isOpen =
      (tokens.filter Token.isOpen).take number ++
        (tokens.filter Token.isOpen)[number] :: (tokens.filter Token.isOpen).drop (number + 1) := by
    rw [List.getElem_cons_drop, List.take_append_drop]
  obtain ⟨early, later, whole, before, behind⟩ := List.filter_eq_append_iff.mp split
  obtain ⟨lead, back, rfl, closed, -, -⟩ := List.filter_eq_cons_iff.mp behind
  have nothing : lead.filter Token.isOpen = [] := List.filter_eq_nil_iff.mpr closed
  refine ⟨early ++ lead, back, by rwa [List.append_assoc], ?_⟩
  rw [List.filter_append, nothing, List.append_nil, before]

/-- The lineage of a brace is that of the braces open where it stands. -/
theorem getElem?_found_of_split
    {front back : List Token}
    {token : Token}
    (isOpen : token.isOpen = true) :
    (ofTokens (front ++ token :: back)).found[(front.filter Token.isOpen).length]? =
      some (ofTokens front).above := by
  have whole : ofTokens (front ++ token :: back) =
      back.foldl take (ofTokens front).enter := by
    rw [← take_of_isOpen isOpen]
    exact List.foldl_append
  obtain ⟨more, grown⟩ := found_prefix_foldl (ofTokens front).enter back
  have length := (numbers_ofTokens front).found
  rw [whole, ← grown, ← length, enter, List.append_assoc,
    List.getElem?_append_right (Nat.le_refl _)]
  simp

/-- The lineage of an open brace among different tokens holds the numbers of those that
enclose it. -/
theorem mem_found_iff_encloses
    {tokens : List Token}
    (distinct : tokens.Nodup)
    {outer inner : Nat}
    (outerInside : outer < (tokens.filter Token.isOpen).length)
    (innerInside : inner < (tokens.filter Token.isOpen).length) :
    (∃ lineage, (ofTokens tokens).found[inner]? = some lineage ∧ outer ∈ lineage) ↔
      Braces.Encloses tokens (tokens.filter Token.isOpen)[outer]
        (tokens.filter Token.isOpen)[inner] := by
  obtain ⟨front, back, split, before⟩ := exists_split_of_opens innerInside
  have isOpen := (List.mem_filter.mp (List.getElem_mem innerInside)).2
  have opensDistinct : (tokens.filter Token.isOpen).Nodup := distinct.filter _
  generalize (tokens.filter Token.isOpen)[inner] = token at split isOpen
  have early {number : Nat} {brace : Token}
      (found : (front.filter Token.isOpen)[number]? = some brace) :
      (tokens.filter Token.isOpen)[number]? = some brace := by
    rw [before] at found
    obtain ⟨inside, rfl⟩ := List.getElem?_eq_some_iff.mp found
    exact List.prefix_iff_getElem?.mp (List.take_prefix _ _) number inside
  have found := @getElem?_found_of_split front back token isOpen
  have length : (front.filter Token.isOpen).length = inner := by
    rw [before, List.length_take]
    omega
  have above := (numbers_ofTokens front).above
  rw [length, ← split] at found
  constructor
  · rintro ⟨lineage, isLineage, present⟩
    obtain rfl := Option.some.inj (isLineage.symm.trans found)
    refine ⟨front, back, split, ?_⟩
    have covered : (front.filter Token.isOpen)[outer]? ∈
        (Braces.ofTokens front).opened.map some := by
      rw [← above]
      exact List.mem_map_of_mem present
    obtain ⟨brace, opened, isBrace⟩ := List.mem_map.mp covered
    have same := early isBrace.symm
    rw [List.getElem?_eq_getElem outerInside] at same
    rwa [Option.some.inj same]
  · rintro ⟨front', back', split', opened⟩
    have sameFront : front = front' := by
      have apart : (front ++ token :: back).Nodup := split ▸ distinct
      rw [List.nodup_middle, List.nodup_cons, List.mem_append] at apart
      have unique := (List.append_cons_inj_of_notMem (fun inFront => apart.1 (.inl inFront))
        fun inBack => apart.1 (.inr inBack)).mp (split.symm.trans split')
      exact unique.1
    subst sameFront
    have covered : some (tokens.filter Token.isOpen)[outer] ∈
        (ofTokens front).above.map fun number => (front.filter Token.isOpen)[number]? := by
      rw [above]
      exact List.mem_map_of_mem opened
    obtain ⟨number, present, isBrace⟩ := List.mem_map.mp covered
    obtain ⟨inside, same⟩ := List.getElem?_eq_some_iff.mp (early isBrace)
    obtain rfl := (List.Nodup.getElem_inj_iff opensDistinct).mp same
    exact ⟨_, found, present⟩

end Lineages

/-! ## Forests -/

namespace Node

/-- Whether a node has a block. -/
def hasBlock : Node → Bool
  | .rule _ _ _ _ => true
  | .atBlock _ _ _ _ _ => true
  | _ => false

/-- A node with a block, its number, and the numbers of the blocks around it. -/
structure Entry where
  node : Node
  number : Nat
  above : List Nat

mutual

/-- The blocks in a node, itself included, numbered from a number on. -/
def entries (next : Nat) (above : List Nat) : Node → List Entry
  | .rule selector selectorSpan span nodes =>
      ⟨.rule selector selectorSpan span nodes, next, above⟩ ::
        entriesAll (next + 1) (next :: above) nodes
  | .atBlock name params paramsSpan span nodes =>
      ⟨.atBlock name params paramsSpan span nodes, next, above⟩ ::
        entriesAll (next + 1) (next :: above) nodes
  | _ => []

/-- The blocks in a forest, numbered from a number on. -/
def entriesAll (next : Nat) (above : List Nat) : List Node → List Entry
  | [] => []
  | node :: rest =>
      let first := node.entries next above
      first ++ entriesAll (next + first.length) above rest

end

/-- What has no block holds no nodes and is no entry. -/
theorem entriesAll_leaf
    {node : Node}
    (leaf : node.hasBlock = false)
    (next : Nat)
    (above : List Nat)
    (rest : List Node) :
    entriesAll next above (node :: rest) = entriesAll next above rest := by
  cases node <;> first | rfl | exact absurd leaf nofun

theorem entriesAll_leaves
    {leaves : List Node}
    (areLeaves : ∀ leaf ∈ leaves, leaf.hasBlock = false)
    (next : Nat)
    (above : List Nat) :
    entriesAll next above leaves = [] := by
  induction leaves with
  | nil => rfl
  | cons leaf rest inductionHypothesis =>
      rw [entriesAll_leaf (areLeaves leaf List.mem_cons_self)]
      exact inductionHypothesis fun other present =>
        areLeaves other (List.mem_cons_of_mem leaf present)

/-- A block comes before what it holds, and that before what follows it. -/
theorem entriesAll_block
    {node : Node}
    (hasBlock : node.hasBlock = true)
    (next : Nat)
    (above : List Nat)
    (rest : List Node) :
    entriesAll next above (node :: rest) =
      ⟨node, next, above⟩ :: (entriesAll (next + 1) (next :: above) node.children ++
        entriesAll (next + 1 + (entriesAll (next + 1) (next :: above) node.children).length)
          above rest) := by
  have counted (length : Nat) : next + 1 + length = next + (length + 1) := by omega
  rw [entriesAll, counted]
  cases node <;> first | rfl | exact absurd hasBlock nofun

theorem children_eq_nil
    {node : Node}
    (leaf : node.hasBlock = false) :
    node.children = [] := by
  cases node <;> first | rfl | exact absurd leaf nofun

theorem preorderAll_cons (node : Node) (rest : List Node) :
    preorderAll (node :: rest) = node :: (preorderAll node.children ++ preorderAll rest) := by
  rw [preorderAll, preorder_eq, List.cons_append]

theorem preorderAll_leaf
    {node : Node}
    (leaf : node.hasBlock = false)
    (rest : List Node) :
    preorderAll (node :: rest) = node :: preorderAll rest := by
  rw [preorderAll_cons, children_eq_nil leaf]
  rfl

/-- Forests from the back, with what a block holds before the block. -/
theorem forestInduction
    {motive : List Node → Prop}
    (nil : motive [])
    (leaf : ∀ node rest, node.hasBlock = false → motive rest → motive (node :: rest))
    (block : ∀ node rest, node.hasBlock = true → motive node.children → motive rest →
      motive (node :: rest)) :
    ∀ nodes, motive nodes := by
  intro nodes
  induction size : Walk.forestSize nodes using Nat.strongRecOn generalizing nodes with
  | _ bound inductionHypothesis =>
      cases nodes with
      | nil => exact nil
      | cons node rest =>
          have counted := Walk.nodeSize_eq node
          rw [Walk.forestSize] at size
          have later := inductionHypothesis _ (by omega) rest rfl
          cases hasBlock : node.hasBlock with
          | false => exact leaf node rest hasBlock later
          | true =>
              exact block node rest hasBlock
                (inductionHypothesis _ (by omega) node.children rfl) later

theorem entriesAll_append
    (next : Nat)
    (above : List Nat)
    (front back : List Node) :
    entriesAll next above (front ++ back) =
      entriesAll next above front ++
        entriesAll (next + (entriesAll next above front).length) above back := by
  induction front generalizing next with
  | nil => rfl
  | cons node rest inductionHypothesis =>
      rw [List.cons_append, entriesAll, entriesAll, inductionHypothesis, List.append_assoc,
        List.length_append, Nat.add_assoc]

/-- The entries are the nodes with blocks in document order. -/
theorem map_node_entriesAll (next : Nat) (above : List Nat) (nodes : List Node) :
    (entriesAll next above nodes).map Entry.node = (preorderAll nodes).filter hasBlock := by
  induction nodes using forestInduction generalizing next above with
  | nil => rfl
  | leaf node rest leaf inductionHypothesis =>
      rw [entriesAll_leaf leaf, preorderAll_leaf leaf, List.filter_cons_of_neg (by simp [leaf]),
        inductionHypothesis]
  | block node rest hasBlock childrenHypothesis restHypothesis =>
      rw [entriesAll_block hasBlock, preorderAll_cons, List.filter_cons_of_pos hasBlock,
        List.map_cons, List.map_append, List.filter_append, childrenHypothesis, restHypothesis]

/-- The entries are numbered one after the other. -/
theorem map_number_entriesAll (next : Nat) (above : List Nat) (nodes : List Node) :
    (entriesAll next above nodes).map Entry.number =
      List.range' next (entriesAll next above nodes).length := by
  induction nodes using forestInduction generalizing next above with
  | nil => rfl
  | leaf node rest leaf inductionHypothesis =>
      rw [entriesAll_leaf leaf, inductionHypothesis]
  | block node rest hasBlock childrenHypothesis restHypothesis =>
      rw [entriesAll_block hasBlock, List.map_cons, List.map_append, childrenHypothesis,
        restHypothesis, List.range'_append_1, List.length_cons, List.length_append,
        List.range'_succ]

theorem number_of_mem_entriesAll
    {next : Nat}
    {above : List Nat}
    {nodes : List Node}
    {entry : Entry}
    (present : entry ∈ entriesAll next above nodes) :
    next ≤ entry.number ∧ entry.number < next + (entriesAll next above nodes).length := by
  have numbered : entry.number ∈ (entriesAll next above nodes).map Entry.number :=
    List.mem_map_of_mem present
  rw [map_number_entriesAll] at numbered
  exact List.mem_range'_1.mp numbered

theorem node_of_mem_entriesAll
    {next : Nat}
    {above : List Nat}
    {nodes : List Node}
    {entry : Entry}
    (present : entry ∈ entriesAll next above nodes) :
    entry.node ∈ preorderAll nodes := by
  have listed : entry.node ∈ (entriesAll next above nodes).map Entry.node :=
    List.mem_map_of_mem present
  rw [map_node_entriesAll] at listed
  exact (List.mem_filter.mp listed).1

/-- The lineage of an entry holds the numbers given and, besides them, numbers of other
entries only. -/
theorem above_of_mem_entriesAll
    {next : Nat}
    {above : List Nat}
    {nodes : List Node}
    {entry : Entry}
    (present : entry ∈ entriesAll next above nodes) :
    (∀ number ∈ above, number ∈ entry.above) ∧
      ∀ number ∈ entry.above, number ∈ above ∨
        (next ≤ number ∧ number < next + (entriesAll next above nodes).length) := by
  induction nodes using forestInduction generalizing next above with
  | nil => exact absurd present nofun
  | leaf node rest leaf inductionHypothesis =>
      rw [entriesAll_leaf leaf] at present ⊢
      exact inductionHypothesis present
  | block node rest hasBlock childrenHypothesis restHypothesis =>
      rw [entriesAll_block hasBlock] at present ⊢
      rw [List.length_cons, List.length_append]
      rcases List.mem_cons.mp present with rfl | later
      · exact ⟨fun _ => id, fun _ => .inl⟩
      · rcases List.mem_append.mp later with inside | behind
        · obtain ⟨keeps, bounds⟩ := childrenHypothesis inside
          refine ⟨fun number given => keeps number (List.mem_cons_of_mem next given),
            fun number listed => ?_⟩
          rcases bounds number listed with given | inside
          · rcases List.mem_cons.mp given with rfl | given
            · exact .inr (by omega)
            · exact .inl given
          · exact .inr (by omega)
        · obtain ⟨keeps, bounds⟩ := restHypothesis behind
          refine ⟨keeps, fun number listed => ?_⟩
          exact (bounds number listed).imp_right fun inside => by omega

/-- What stands below a node of a forest stands in the forest. -/
theorem preorderAll_children_subset
    {nodes : List Node}
    {node : Node}
    (present : node ∈ preorderAll nodes) :
    preorderAll node.children ⊆ preorderAll nodes := by
  induction nodes using forestInduction with
  | nil => exact absurd present nofun
  | leaf first rest leaf inductionHypothesis =>
      rw [preorderAll_leaf leaf] at present ⊢
      rcases List.mem_cons.mp present with rfl | behind
      · rw [children_eq_nil leaf]
        exact List.nil_subset _
      · exact List.subset_cons_of_subset first (inductionHypothesis behind)
  | block first rest hasBlock childrenHypothesis restHypothesis =>
      rw [preorderAll_cons] at present ⊢
      apply List.subset_cons_of_subset
      rcases List.mem_cons.mp present with rfl | later
      · exact List.subset_append_left _ _
      · rcases List.mem_append.mp later with inside | behind
        · exact List.subset_append_of_subset_left _ (childrenHypothesis inside)
        · exact List.subset_append_of_subset_right _ (restHypothesis behind)

/-- In a forest of different nodes, the lineage of an entry holds the numbers of the
entries below which it stands. -/
theorem number_mem_above_iff
    {next : Nat}
    {above : List Nat}
    {nodes : List Node}
    (distinct : (preorderAll nodes).Nodup)
    (earlier : ∀ number ∈ above, number < next)
    {outer inner : Entry}
    (outerPresent : outer ∈ entriesAll next above nodes)
    (innerPresent : inner ∈ entriesAll next above nodes) :
    outer.number ∈ inner.above ↔ inner.node ∈ preorderAll outer.node.children := by
  induction nodes using forestInduction generalizing next above with
  | nil => exact absurd outerPresent nofun
  | leaf node rest leaf inductionHypothesis =>
      rw [preorderAll_leaf leaf] at distinct
      rw [entriesAll_leaf leaf] at outerPresent innerPresent
      exact inductionHypothesis (List.nodup_cons.mp distinct).2 earlier outerPresent innerPresent
  | block node rest hasBlock childrenHypothesis restHypothesis =>
      rw [preorderAll_cons, List.nodup_cons, List.nodup_append, List.mem_append] at distinct
      obtain ⟨once, distinctInside, distinctBehind, apart⟩ := distinct
      rw [entriesAll_block hasBlock] at outerPresent innerPresent
      have earlierInside : ∀ number ∈ next :: above, number < next + 1 := by
        intro number given
        rcases List.mem_cons.mp given with rfl | given
        · exact Nat.lt_succ_self _
        · exact Nat.lt_succ_of_lt (earlier number given)
      have earlierBehind (length : Nat) : ∀ number ∈ above, number < next + 1 + length :=
        fun number given => by
          have before := earlier number given
          omega
      rcases List.mem_cons.mp outerPresent with rfl | outerLater
      · rcases List.mem_cons.mp innerPresent with rfl | innerLater
        · refine iff_of_false (fun given => ?_) fun inside => once (.inl inside)
          exact Nat.lt_irrefl _ (earlier _ given)
        · rcases List.mem_append.mp innerLater with inside | behind
          · exact iff_of_true ((above_of_mem_entriesAll inside).1 next List.mem_cons_self)
              (node_of_mem_entriesAll inside)
          · refine iff_of_false (fun listed => ?_) fun inside =>
              apart _ inside _ (node_of_mem_entriesAll behind) rfl
            rcases (above_of_mem_entriesAll behind).2 next listed with given | bounds
            · exact Nat.lt_irrefl _ (earlier _ given)
            · omega
      · rcases List.mem_append.mp outerLater with outerInside | outerBehind
        · have bounds := number_of_mem_entriesAll outerInside
          have below := preorderAll_children_subset (node_of_mem_entriesAll outerInside)
          rcases List.mem_cons.mp innerPresent with rfl | innerLater
          · refine iff_of_false (fun given => ?_) fun inside => once (.inl (below inside))
            have before := earlier _ given
            omega
          · rcases List.mem_append.mp innerLater with inside | behind
            · exact childrenHypothesis distinctInside earlierInside outerInside inside
            · refine iff_of_false (fun listed => ?_) fun inside =>
                apart _ (below inside) _ (node_of_mem_entriesAll behind) rfl
              rcases (above_of_mem_entriesAll behind).2 _ listed with given | others
              · have before := earlier _ given
                omega
              · omega
        · have bounds := number_of_mem_entriesAll outerBehind
          have below := preorderAll_children_subset (node_of_mem_entriesAll outerBehind)
          rcases List.mem_cons.mp innerPresent with rfl | innerLater
          · refine iff_of_false (fun given => ?_) fun inside => once (.inr (below inside))
            have before := earlier _ given
            omega
          · rcases List.mem_append.mp innerLater with inside | behind
            · refine iff_of_false (fun listed => ?_) fun found =>
                apart _ (node_of_mem_entriesAll inside) _ (below found) rfl
              rcases (above_of_mem_entriesAll inside).2 _ listed with given | others
              · have before := earlierInside _ given
                omega
              · omega
            · exact restHypothesis distinctBehind (earlierBehind _) outerBehind behind

/-- For each block of a forest in document order the numbers of the blocks around it. -/
def lineages (next : Nat) (above : List Nat) (nodes : List Node) : List (List Nat) :=
  (entriesAll next above nodes).map Entry.above

/-- Each block has a lineage. -/
theorem length_lineages (next : Nat) (above : List Nat) (nodes : List Node) :
    (lineages next above nodes).length = ((preorderAll nodes).filter hasBlock).length := by
  rw [lineages, List.length_map, ← map_node_entriesAll next above nodes, List.length_map]

/-- Each block of a forest is an entry. -/
theorem exists_entry
    {nodes : List Node}
    {number : Nat}
    (inside : number < ((preorderAll nodes).filter hasBlock).length) :
    ∃ entry ∈ entriesAll 0 [] nodes,
      entry.node = ((preorderAll nodes).filter hasBlock)[number] ∧ entry.number = number ∧
        (lineages 0 [] nodes)[number]? = some entry.above := by
  have blocks := map_node_entriesAll 0 [] nodes
  have numbers := map_number_entriesAll 0 [] nodes
  have length := congrArg List.length blocks
  rw [List.length_map] at length
  have present : number < (entriesAll 0 [] nodes).length := by omega
  refine ⟨(entriesAll 0 [] nodes)[number], List.getElem_mem present, ?_, ?_, ?_⟩
  · rw [List.getElem_of_eq blocks.symm inside, List.getElem_map]
  · have numbered := List.getElem_of_eq numbers (by rwa [List.length_map])
    rwa [List.getElem_map, List.getElem_range', Nat.zero_add, Nat.one_mul] at numbered
  · unfold lineages
    rw [List.getElem?_map, List.getElem?_eq_getElem present]
    rfl

/-- In a forest of different nodes, the lineage of a block holds the numbers of the
blocks below which it stands. -/
theorem mem_lineages_iff
    {nodes : List Node}
    (distinct : (preorderAll nodes).Nodup)
    {outer inner : Nat}
    (outerInside : outer < ((preorderAll nodes).filter hasBlock).length)
    (innerInside : inner < ((preorderAll nodes).filter hasBlock).length) :
    (∃ lineage, (lineages 0 [] nodes)[inner]? = some lineage ∧ outer ∈ lineage) ↔
      ((preorderAll nodes).filter hasBlock)[inner] ∈
        preorderAll ((preorderAll nodes).filter hasBlock)[outer].children := by
  obtain ⟨above, abovePresent, aboveNode, aboveNumber, -⟩ := exists_entry outerInside
  obtain ⟨below, belowPresent, belowNode, -, lineage⟩ := exists_entry innerInside
  rw [← aboveNode, ← belowNode, lineage,
    ← number_mem_above_iff distinct (fun _ given => absurd given List.not_mem_nil) abovePresent
      belowPresent, aboveNumber]
  exact ⟨fun ⟨_, isLineage, listed⟩ => Option.some.inj isLineage ▸ listed,
    fun listed => ⟨below.above, rfl, listed⟩⟩

end Node

namespace Lineages

/-- The blocks of a forest behind others. -/
def fill (lineages : Lineages) (nodes : List Node) : Lineages :=
  ⟨lineages.found ++ Node.lineages lineages.found.length lineages.above nodes, lineages.above⟩

theorem fill_nil (lineages : Lineages) : lineages.fill [] = lineages := by
  unfold fill
  rw [Node.lineages, Node.entriesAll, List.map_nil, List.append_nil]

theorem fill_append (lineages : Lineages) (front back : List Node) :
    lineages.fill (front ++ back) = (lineages.fill front).fill back := by
  unfold fill Node.lineages
  rw [Node.entriesAll_append, List.map_append, List.append_assoc, List.length_append,
    List.length_map]

/-- Nodes without blocks count for nothing. -/
theorem fill_leaves
    {leaves : List Node}
    (areLeaves : ∀ leaf ∈ leaves, leaf.hasBlock = false)
    (lineages : Lineages) :
    lineages.fill leaves = lineages := by
  unfold fill Node.lineages
  rw [Node.entriesAll_leaves areLeaves, List.map_nil, List.append_nil]

/-- A block begins, holds what it holds, and ends. -/
theorem fill_block
    {node : Node}
    (hasBlock : node.hasBlock = true)
    (lineages : Lineages) :
    lineages.fill [node] = (lineages.enter.fill node.children).leave := by
  unfold fill leave enter Node.lineages
  rw [Node.entriesAll_block hasBlock, Node.entriesAll, List.append_nil, List.map_cons,
    List.length_append, List.append_assoc]
  rfl

end Lineages
end StyleTypings
