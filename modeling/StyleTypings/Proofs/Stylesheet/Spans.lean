import StyleTypings.Proofs.Text.Cutting
import StyleTypings.Stylesheet.Lexer
import StyleTypings.Stylesheet.Walk

/-!
# Where nodes lie

The nodes of a forest fit between two offsets if they follow one another without
overlap, each begins with a character that is no space and ends on a character
boundary, and the nodes of its block fit behind its beginning. Then all nodes in
document order begin at ascending offsets.
-/

namespace StyleTypings

/-- A character that is no space stands at an offset of a text. -/
def Text.SolidAt (text : Text) (offset : Nat) : Prop :=
  ∃ (front : Text) (c : Char) (back : Text),
    text = front ++ c :: back ∧ front.byteSize = offset ∧
    Lexer.isSpace c = false

theorem Text.SolidAt.boundary
    {text : Text}
    {offset : Nat}
    (solid : text.SolidAt offset) :
    text.Boundary offset := by
  obtain ⟨front, c, back, rfl, rfl, -⟩ := solid
  exact Text.Boundary.append front (c :: back)

theorem Text.SolidAt.lt_byteSize
    {text : Text}
    {offset : Nat}
    (solid : text.SolidAt offset) :
    offset < text.byteSize := by
  obtain ⟨front, c, back, rfl, rfl, -⟩ := solid
  have positive := Char.utf8Size_pos c
  rw [Text.byteSize_append, Text.byteSize_cons]
  omega

/-- A span lies between two offsets of a text. -/
structure Span.Fits (text : Text) (low high : Nat) (span : Span) : Prop where
  low_le : low ≤ span.start
  start_lt_stop : span.start < span.stop
  stop_le : span.stop ≤ high
  solid : text.SolidAt span.start
  ends : text.Boundary span.stop

theorem Span.Fits.mono
    {text : Text}
    {low low' high high' : Nat}
    {span : Span}
    (fits : span.Fits text low high)
    (lower : low' ≤ low)
    (higher : high ≤ high') :
    span.Fits text low' high' :=
  { fits with
    low_le := Nat.le_trans lower fits.low_le
    stop_le := Nat.le_trans fits.stop_le higher }

namespace Node

mutual

/-- A node and everything below it lie between two offsets. -/
def Fits (text : Text) (low high : Nat) : Node → Prop
  | .rule _ _ span nodes =>
      span.Fits text low high ∧ AllFit text (span.start + 1) span.stop nodes
  | .atBlock _ _ _ span nodes =>
      span.Fits text low high ∧ AllFit text (span.start + 1) span.stop nodes
  | .atStatement _ _ _ span => span.Fits text low high
  | .declaration _ _ span => span.Fits text low high
  | .comment _ span => span.Fits text low high

/-- The nodes of a forest lie between two offsets, one after the other. -/
def AllFit (text : Text) (low high : Nat) : List Node → Prop
  | [] => low ≤ high
  | node :: rest => node.Fits text low high ∧ AllFit text node.span.stop high rest

end

/-- A node fits if its span does and its block fits into it. -/
theorem fits_iff {text : Text} {low high : Nat} (node : Node) :
    node.Fits text low high ↔
      node.span.Fits text low high ∧
        AllFit text (node.span.start + 1) node.span.stop node.children := by
  cases node with
  | rule selector selectorSpan span nodes => rfl
  | atBlock name params paramsSpan span nodes => rfl
  | atStatement name params paramsSpan span =>
      exact ⟨fun fits => ⟨fits, fits.start_lt_stop⟩, And.left⟩
  | declaration property value span =>
      exact ⟨fun fits => ⟨fits, fits.start_lt_stop⟩, And.left⟩
  | comment text span => exact ⟨fun fits => ⟨fits, fits.start_lt_stop⟩, And.left⟩

theorem Fits.span
    {text : Text}
    {low high : Nat}
    {node : Node}
    (fits : node.Fits text low high) :
    node.span.Fits text low high :=
  ((fits_iff node).mp fits).1

theorem Fits.mono
    {text : Text}
    {low low' high high' : Nat}
    {node : Node}
    (fits : node.Fits text low high)
    (lower : low' ≤ low)
    (higher : high ≤ high') :
    node.Fits text low' high' := by
  obtain ⟨span, block⟩ := (fits_iff node).mp fits
  exact (fits_iff node).mpr ⟨span.mono lower higher, block⟩

theorem AllFit.le
    {text : Text}
    {low high : Nat}
    {nodes : List Node}
    (fit : AllFit text low high nodes) :
    low ≤ high := by
  cases nodes with
  | nil => exact fit
  | cons node rest =>
      have first := fit.1.span
      have lower := first.low_le
      have inside := first.start_lt_stop
      have upper := first.stop_le
      omega

theorem AllFit.mono
    {text : Text}
    {low low' high high' : Nat}
    {nodes : List Node}
    (fit : AllFit text low high nodes)
    (lower : low' ≤ low)
    (higher : high ≤ high') :
    AllFit text low' high' nodes := by
  induction nodes generalizing low low' with
  | nil => exact Nat.le_trans lower (Nat.le_trans fit higher)
  | cons node rest inductionHypothesis =>
      exact ⟨fit.1.mono lower higher, inductionHypothesis fit.2 (Nat.le_refl _)⟩

/-- A node that fits behind others fits with them. -/
theorem AllFit.concat
    {text : Text}
    {low middle high : Nat}
    {nodes : List Node}
    {node : Node}
    (front : AllFit text low middle nodes)
    (last : node.Fits text middle high) :
    AllFit text low high (nodes ++ [node]) := by
  induction nodes generalizing low with
  | nil => exact ⟨last.mono front (Nat.le_refl _), last.span.stop_le⟩
  | cons first rest inductionHypothesis =>
      have upper : middle ≤ high :=
        Nat.le_trans last.span.low_le
          (Nat.le_trans (Nat.le_of_lt last.span.start_lt_stop) last.span.stop_le)
      exact ⟨front.1.mono (Nat.le_refl _) upper, inductionHypothesis front.2⟩

/-! ## Document order -/

/-- Offsets lie between two others, ascend, and each is one of a solid
character. -/
structure Ascend (text : Text) (low high : Nat) (offsets : List Nat) : Prop where
  within : ∀ offset ∈ offsets, low ≤ offset ∧ offset < high
  ordered : offsets.Pairwise (· < ·)
  solid : ∀ offset ∈ offsets, text.SolidAt offset

theorem Ascend.append
    {text : Text}
    {low middle high : Nat}
    {front back : List Nat}
    (lower : low ≤ middle)
    (upper : middle ≤ high)
    (first : Ascend text low middle front)
    (second : Ascend text middle high back) :
    Ascend text low high (front ++ back) where
  within := by
    intro offset present
    rcases List.mem_append.mp present with inFront | inBack
    · have bounds := first.within offset inFront
      omega
    · have bounds := second.within offset inBack
      omega
  ordered := by
    refine List.pairwise_append.mpr ⟨first.ordered, second.ordered, ?_⟩
    intro left inFront right inBack
    have leftBounds := first.within left inFront
    have rightBounds := second.within right inBack
    omega
  solid := by
    intro offset present
    rcases List.mem_append.mp present with inFront | inBack
    · exact first.solid offset inFront
    · exact second.solid offset inBack

theorem ascend_nil (text : Text) (low high : Nat) : Ascend text low high [] :=
  ⟨nofun, .nil, nofun⟩

/-- The beginning of a span and what follows it within. -/
theorem Ascend.cons
    {text : Text}
    {low high : Nat}
    {span : Span}
    {offsets : List Nat}
    (fits : span.Fits text low high)
    (later : Ascend text (span.start + 1) span.stop offsets) :
    Ascend text low high (span.start :: offsets) := by
  have lower := fits.low_le
  have inside := fits.start_lt_stop
  have upper := fits.stop_le
  have first : Ascend text span.start (span.start + 1) [span.start] :=
    { within := by simp
      ordered := List.pairwise_singleton _ _
      solid := by simpa using fits.solid }
  have whole := first.append (Nat.le_succ _) inside later
  exact
    { whole with
      within := fun offset present => by
        have bounds := whole.within offset present
        omega }

/-- A node comes before the nodes of its block. -/
theorem preorder_eq (node : Node) :
    node.preorder = node :: preorderAll node.children := by
  cases node <;> rfl

/-- A node that fits fits up to its own end. -/
theorem Fits.upTo
    {text : Text}
    {low high : Nat}
    {node : Node}
    (fits : node.Fits text low high) :
    node.Fits text low node.span.stop := by
  obtain ⟨span, block⟩ := (fits_iff node).mp fits
  exact (fits_iff node).mpr ⟨{ span with stop_le := Nat.le_refl _ }, block⟩

mutual

/-- A node that fits and everything below it begin at ascending offsets. -/
theorem Fits.ascend
    {text : Text}
    {low high : Nat} :
    (node : Node) → node.Fits text low high →
      Ascend text low high (node.preorder.map (·.span.start))
  | .rule _ _ _ nodes, fits => .cons fits.1 (AllFit.ascend nodes fits.2)
  | .atBlock _ _ _ _ nodes, fits => .cons fits.1 (AllFit.ascend nodes fits.2)
  | .atStatement _ _ _ _, fits => .cons fits (ascend_nil _ _ _)
  | .declaration _ _ _, fits => .cons fits (ascend_nil _ _ _)
  | .comment _ _, fits => .cons fits (ascend_nil _ _ _)

/-- All nodes of a forest that fits begin at ascending offsets. -/
theorem AllFit.ascend
    {text : Text}
    {low high : Nat} :
    (nodes : List Node) → AllFit text low high nodes →
      Ascend text low high ((preorderAll nodes).map (·.span.start))
  | [], _ => ascend_nil _ _ _
  | node :: rest, fit => by
      have span := fit.1.span
      have lower : low ≤ node.span.stop :=
        Nat.le_trans span.low_le (Nat.le_of_lt span.start_lt_stop)
      rw [preorderAll, List.map_append]
      exact .append lower span.stop_le (Fits.ascend node fit.1.upTo)
        (AllFit.ascend rest fit.2)

end

end Node

/-- A walk visits the forests on its stack one after the other. -/
theorem Walk.visits_eq_flatMap (walk : Walk) :
    walk.visits = walk.flatMap Node.preorderAll := by
  fun_induction Walk.visits walk with
  | case1 => rfl
  | case2 rest inductionHypothesis => exact inductionHypothesis
  | case3 node siblings rest inductionHypothesis =>
      rw [inductionHypothesis, List.flatMap_cons, List.flatMap_cons, List.flatMap_cons,
        Node.preorderAll, Node.preorder_eq, List.cons_append, List.cons_append,
        List.append_assoc]

/-- The walk over a style sheet lists its nodes in document order. -/
theorem Stylesheet.descendants_eq (sheet : Stylesheet) :
    sheet.descendants = Node.preorderAll sheet.nodes := by
  unfold descendants
  rw [Walk.visits_eq_flatMap, List.flatMap_singleton]

end StyleTypings
