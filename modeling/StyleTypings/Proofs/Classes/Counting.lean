import StyleTypings.Classes.Exported
import StyleTypings.Proofs.Stylesheet.Selectors
import StyleTypings.Proofs.Text.Joining
import StyleTypings.Text.Bounded

/-!
# How many classes there are

A class takes a dot and at least one more character of its selector, so a style
sheet exports at most half as many classes as its text has bytes.
-/

namespace StyleTypings

namespace Selector

/-- Reading an identifier that is not empty takes something off the text. -/
theorem length_identifier_lt
    {text : Text}
    (nonempty : (identifier text).1 ≠ []) :
    (identifier text).2.length < text.length := by
  cases text with
  | nil => simp [identifier] at nonempty
  | cons c rest =>
      rw [identifier] at nonempty ⊢
      by_cases escape : c = '\\'
      · have opening := length_unescape_le rest
        have others := length_identifier_le (unescape rest).2
        simp only [escape, if_true, List.length_cons]
        omega
      · by_cases isName : isNameChar c = true
        · have others := length_identifier_le rest
          simp only [escape, isName, if_true, if_false, List.length_cons]
          omega
        · simp only [escape, isName, if_false] at nonempty
          exact absurd rfl nonempty

theorem nonempty_of_beginsClass
    {text : Text}
    (begins : beginsClass text = true) :
    (identifier text).1 ≠ [] := by
  unfold beginsClass at begins
  simp only [Bool.and_eq_true, Bool.not_eq_true', List.isEmpty_eq_false_iff] at begins
  exact begins.1

/-- Each class takes two characters of a selector. -/
theorem length_classesFrom_le (scopes : Scopes) (text : Text) :
    2 * (classesFrom scopes text).length ≤ text.length := by
  fun_induction classesFrom scopes text with
  | case1 => exact Nat.le_refl _
  | case2 scopes rest read others kept inductionHypothesis =>
      have shorter := length_identifier_lt (nonempty_of_beginsClass kept.1)
      change 2 * others.length ≤ (identifier rest).2.length at inductionHypothesis
      simp only [List.length_cons]
      omega
  | case3 scopes rest read others dropped inductionHypothesis =>
      have shorter := length_identifier_le rest
      exact Nat.le_trans inductionHypothesis (Nat.le_succ_of_le shorter)
  | case4 scopes rest _ inductionHypothesis =>
      have shorter := length_identifier_le rest
      exact Nat.le_trans inductionHypothesis (Nat.le_succ_of_le shorter)
  | case5 scopes rest _ _ inductionHypothesis =>
      have shorter := length_afterAttribute_le rest
      exact Nat.le_trans inductionHypothesis (Nat.le_succ_of_le shorter)
  | case6 scopes quote rest _ _ _ _ inductionHypothesis =>
      have shorter := length_afterString_le quote rest
      exact Nat.le_trans inductionHypothesis (Nat.le_succ_of_le shorter)
  | case7 scopes rest read after _ _ _ _ inductionHypothesis =>
      have dropped := length_dropColon_le rest
      have identified := length_identifier_le (dropColon rest)
      have passed := length_afterPseudo_le scopes read.1 read.2
      have shorter := Nat.le_trans passed (Nat.le_trans identified dropped)
      exact Nat.le_trans inductionHypothesis (Nat.le_succ_of_le shorter)
  | case8 _ _ _ _ _ _ _ inductionHypothesis => exact Nat.le_succ_of_le inductionHypothesis
  | case9 _ _ _ _ _ _ _ _ inductionHypothesis =>
      exact Nat.le_succ_of_le inductionHypothesis
  | case10 _ _ _ _ _ _ _ _ _ inductionHypothesis =>
      exact Nat.le_succ_of_le inductionHypothesis
  | case11 scopes rest _ _ _ _ _ _ _ _ inductionHypothesis =>
      exact Nat.le_trans inductionHypothesis (length_identifier_le _)
  | case12 _ _ _ _ _ _ _ _ _ _ _ _ inductionHypothesis =>
      exact Nat.le_succ_of_le inductionHypothesis

/-- Each class takes two bytes of a selector. -/
theorem length_classes_le (selector : Text) :
    2 * (classes selector).length ≤ selector.byteSize :=
  Nat.le_trans (length_classesFrom_le _ _) (Text.length_le_byteSize selector)

end Selector

namespace Exported

mutual

theorem length_ofNode_le :
    (node : Node) → 2 * (ofNode node).length ≤ node.selectorSize
  | .rule selector _ _ nodes => by
      have own := Selector.length_classes_le selector
      have inner := length_ofForest_le nodes
      rw [ofNode, Node.selectorSize, List.length_append]
      omega
  | .atBlock name _ _ _ nodes => by
      have inner := length_ofForest_le nodes
      rw [ofNode, Node.selectorSize]
      split
      · exact Nat.zero_le _
      · exact inner
  | .atStatement _ _ _ _ => Nat.le_refl _
  | .declaration _ _ _ => Nat.le_refl _
  | .comment _ _ => Nat.le_refl _

/-- Each class of a forest takes two bytes of its selectors. -/
theorem length_ofForest_le :
    (nodes : List Node) → 2 * (ofForest nodes).length ≤ Node.selectorSizeAll nodes
  | [] => Nat.le_refl _
  | node :: rest => by
      have first := length_ofNode_le node
      have others := length_ofForest_le rest
      rw [ofForest, Node.selectorSizeAll, List.length_append]
      omega

end

end Exported

/-- A text exports at most half as many classes as it has bytes. -/
theorem Parser.length_exported_le (text : Text) :
    2 * (parse text).sheet.exported.length ≤ text.byteSize := by
  have distinct := Text.length_eraseDups_le (Exported.ofForest (parse text).sheet.nodes)
  have listed := Exported.length_ofForest_le (parse text).sheet.nodes
  have selectors := selectorSizeAll_parse_le text
  unfold Stylesheet.exported
  omega

/-- The classes of a text shorter than `2 ^ 32` bytes and the line in front of them
are numbered by words. -/
theorem Parser.length_exported_lt
    {text : Text}
    (small : text.byteSize < UInt32.size) :
    (parse text).sheet.exported.length + 1 < UInt32.size := by
  have classes := length_exported_le text
  have two : 2 < UInt32.size := by decide
  omega

end StyleTypings
