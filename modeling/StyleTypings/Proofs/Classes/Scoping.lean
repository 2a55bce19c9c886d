import StyleTypings.Proofs.Classes.Pieces
import StyleTypings.Proofs.Stylesheet.Condensing
import StyleTypings.Proofs.Text.Joining

/-!
# Which classes are exported

The scanner of selectors keeps the scopes in force on a stack. On a well nested selector it
finds the local classes of the selector's structure: inside parentheses the innermost scope
stays what the parentheses set it to, and outside the bare scope is always what the pieces
read so far say. So a style sheet exports the local classes of its rules outside keyframes,
each once, in the order in which they first occur.
-/

namespace StyleTypings
namespace Selector

open Piece

/-! ## One step -/

/-- What scoping does not go by is passed over. -/
theorem Skips.classesFrom_eq
    {text rest : Text}
    (skips : Skips text rest)
    (scopes : Scopes) :
    classesFrom scopes text = classesFrom scopes rest := by
  cases skips with
  | @other c _ isOther _ =>
      have differs {lead : Char} (isLead : lead ∈ leads) : c ≠ lead := by
        rintro rfl
        exact isOther isLead
      rw [classesFrom, if_neg (differs (by decide)), if_neg (differs (by decide)),
        if_neg (differs (by decide)),
        if_neg (not_or.mpr ⟨differs (by decide), differs (by decide)⟩),
        if_neg (differs (by decide)), if_neg (differs (by decide)),
        if_neg (differs (by decide)), if_neg (differs (by decide)),
        if_neg (differs (by decide))]
  | string isQuote string =>
      have differs {lead : Char} (other : ¬(lead = '"' ∨ lead = '\'')) : _ ≠ lead :=
        fun same => other (same ▸ isQuote)
      rw [classesFrom, if_neg (differs (by decide)), if_neg (differs (by decide)),
        if_neg (differs (by decide)), if_pos isQuote, string.afterString_eq isQuote]
  | test test =>
      rw [classesFrom, if_neg (by decide), if_neg (by decide), if_pos rfl,
        test.afterAttribute_eq]
  | id spelled =>
      rw [classesFrom, if_neg (by decide), if_pos rfl, spelled.identifier_eq]
  | escaped spelled => rw [classesFrom_backslash, spelled.identifier_eq]
  | number noClass spelled =>
      rw [classesFrom, if_pos rfl]
      simp only [beginsClass_eq_false noClass, spelled.identifier_eq, Bool.false_eq_true,
        false_and, if_false]
  | pseudo spelled noMarker bare =>
      rw [classesFrom, if_neg (by decide), if_neg (by decide), if_neg (by decide),
        if_neg (by decide), if_pos rfl]
      simp only [spelled.identifier_eq, afterPseudo_of_head? bare, scopesAfter,
        scopeOf?_eq_markerOf?, noMarker]

theorem classesFrom_className
    {text name rest : Text}
    (begins : BeginsClass text)
    (spelled : Spelled text name rest)
    (scopes : Scopes) :
    classesFrom scopes ('.' :: text) =
      (Piece.className name).localsIn scopes.isGlobal ++ classesFrom scopes rest := by
  rw [classesFrom, if_pos rfl]
  simp only [beginsClass_eq begins spelled, spelled.identifier_eq, localsIn]
  cases name <;> cases scopes.isGlobal <;> rfl

theorem classesFrom_marker
    {text name rest : Text}
    {isGlobal : Bool}
    (spelled : Spelled (dropColon text) name rest)
    (isMarker : markerOf? name = some isGlobal)
    (bare : rest.head? ≠ some '(')
    (scopes : Scopes) :
    classesFrom scopes (':' :: text) = classesFrom (scopes.set isGlobal) rest := by
  rw [classesFrom, if_neg (by decide), if_neg (by decide), if_neg (by decide),
    if_neg (by decide), if_pos rfl]
  simp only [spelled.identifier_eq, afterPseudo_of_head? bare, scopesAfter,
    scopeOf?_eq_markerOf?, isMarker]

theorem classesFrom_function
    {text name inner : Text}
    {scope : Option Bool}
    (spelled : Spelled (dropColon text) name ('(' :: inner))
    (isScope : markerOf? name = scope)
    (scopes : Scopes) :
    classesFrom scopes (':' :: text) =
      classesFrom (scopes.enter (scope.getD scopes.isGlobal)) inner := by
  rw [classesFrom, if_neg (by decide), if_neg (by decide), if_neg (by decide),
    if_neg (by decide), if_pos rfl]
  simp only [spelled.identifier_eq, afterPseudo, scopeOf?_eq_markerOf?, isScope]

theorem classesFrom_comma (scopes : Scopes) (text : Text) :
    classesFrom scopes (',' :: text) = classesFrom scopes.afterComma text := by
  rw [classesFrom, if_neg (by decide), if_neg (by decide), if_neg (by decide),
    if_neg (by decide), if_neg (by decide), if_neg (by decide), if_neg (by decide), if_pos rfl]

theorem classesFrom_open (scopes : Scopes) (text : Text) :
    classesFrom scopes ('(' :: text) = classesFrom (scopes.enter scopes.isGlobal) text := by
  rw [classesFrom, if_neg (by decide), if_neg (by decide), if_neg (by decide),
    if_neg (by decide), if_neg (by decide), if_pos rfl]

theorem classesFrom_close (scopes : Scopes) (text : Text) :
    classesFrom scopes (')' :: text) = classesFrom scopes.leave text := by
  rw [classesFrom, if_neg (by decide), if_neg (by decide), if_neg (by decide),
    if_neg (by decide), if_neg (by decide), if_neg (by decide), if_pos rfl]

/-! ## Whole selectors -/

/-- Inside parentheses the scope stays what it is. -/
theorem Consists.classesFrom_inside
    {isOutside : Bool}
    {text rest : Text}
    {pieces : List Piece}
    (consists : Consists isOutside text pieces rest)
    (inside : isOutside = false)
    {scopes : Scopes}
    (nested : scopes.inner ≠ []) :
    classesFrom scopes text =
      localsInAll scopes.isGlobal pieces ++ classesFrom scopes rest := by
  induction consists generalizing scopes with
  | stop => rfl
  | skip skips later inductionHypothesis =>
      rw [skips.classesFrom_eq, inductionHypothesis inside nested]
  | className begins spelled later inductionHypothesis =>
      rw [classesFrom_className begins spelled, inductionHypothesis inside nested, localsInAll,
        List.append_assoc]
  | marker => exact absurd inside (by decide)
  | comma later inductionHypothesis =>
      have kept : scopes.afterComma = scopes := by
        unfold Scopes.afterComma
        rw [List.isEmpty_eq_false_iff.mpr nested]
        rfl
      rw [classesFrom_comma, kept, inductionHypothesis inside nested]
      rfl
  | function spelled isScope within later bodyHypothesis inductionHypothesis =>
      rw [classesFrom_function spelled isScope, bodyHypothesis rfl (List.cons_ne_nil _ _),
        classesFrom_close, localsInAll, List.append_assoc]
      exact congrArg _ (inductionHypothesis inside nested)
  | parens within later bodyHypothesis inductionHypothesis =>
      rw [classesFrom_open, bodyHypothesis rfl (List.cons_ne_nil _ _), classesFrom_close,
        localsInAll, List.append_assoc]
      exact congrArg _ (inductionHypothesis inside nested)

/-- Parentheses outside all others add their local classes and leave the scope as it is. -/
theorem Consists.classesFrom_parens
    {text rest : Text}
    {body : List Piece}
    (consists : Consists false text body (')' :: rest))
    (bare isGlobal : Bool) :
    classesFrom (Scopes.enter ⟨bare, []⟩ isGlobal) text =
      localsInAll isGlobal body ++ classesFrom ⟨bare, []⟩ rest := by
  rw [consists.classesFrom_inside rfl (List.cons_ne_nil _ _), classesFrom_close]
  rfl

/-- Outside parentheses the bare scope is what the pieces so far say. -/
theorem Consists.classesFrom_outside
    {isOutside : Bool}
    {text rest : Text}
    {pieces : List Piece}
    (consists : Consists isOutside text pieces rest)
    (outside : isOutside = true)
    (before : List Piece) :
    classesFrom ⟨bareScope before, []⟩ text =
      localsBehind before pieces ++
        classesFrom ⟨bareScope (before ++ pieces), []⟩ rest := by
  have regroup (before : List Piece) (piece : Piece) (pieces : List Piece) :
      (before ++ [piece]) ++ pieces = before ++ piece :: pieces := by
    rw [List.append_assoc, List.singleton_append]
  induction consists generalizing before with
  | stop => rw [localsBehind, List.nil_append, List.append_nil]
  | skip skips later inductionHypothesis =>
      rw [skips.classesFrom_eq, inductionHypothesis outside before]
  | @className _ _ name _ _ _ begins spelled later inductionHypothesis =>
      have next := inductionHypothesis outside (before ++ [.className name])
      rw [regroup, bareScope_concat] at next
      rw [classesFrom_className begins spelled, localsBehind, List.append_assoc]
      exact congrArg _ next
  | @marker _ _ _ _ isGlobal _ spelled isMarker bare later inductionHypothesis =>
      have next := inductionHypothesis outside (before ++ [.marker isGlobal])
      rw [regroup, bareScope_concat] at next
      rw [classesFrom_marker spelled isMarker bare, localsBehind]
      exact next
  | comma later inductionHypothesis =>
      have next := inductionHypothesis outside (before ++ [.comma])
      rw [regroup, bareScope_concat] at next
      rw [classesFrom_comma, localsBehind]
      exact next
  | @function _ _ _ _ _ _ scope body _ spelled isScope inside later _ inductionHypothesis =>
      have next := inductionHypothesis outside (before ++ [.parens scope body])
      rw [regroup, bareScope_concat] at next
      rw [classesFrom_function spelled isScope, inside.classesFrom_parens, localsBehind,
        List.append_assoc]
      exact congrArg _ next
  | @parens _ _ _ _ body _ inside later _ inductionHypothesis =>
      have next := inductionHypothesis outside (before ++ [.parens none body])
      rw [regroup, bareScope_concat] at next
      rw [classesFrom_open, inside.classesFrom_parens, localsBehind, List.append_assoc]
      exact congrArg _ next

/-- The scanner finds the local classes of a well nested selector. -/
theorem IsWellNested.classes_eq
    {selector : Text}
    {pieces : List Piece}
    (nested : IsWellNested selector pieces) :
    classes selector = locals pieces := by
  have found := nested.classesFrom_outside rfl []
  have nothing (scopes : Scopes) : classesFrom scopes [] = [] := by
    rw [classesFrom]
  rw [nothing, List.append_nil] at found
  exact found

end Selector

/-! ## Style sheets -/

namespace Node

mutual

/-- A node and everything below it, each with the nodes it lies in, in document order. -/
def placed (around : List Node) : Node → List (Node × List Node)
  | .rule selector selectorSpan span nodes =>
      (.rule selector selectorSpan span nodes, around) ::
        placedAll (.rule selector selectorSpan span nodes :: around) nodes
  | .atBlock name params paramsSpan span nodes =>
      (.atBlock name params paramsSpan span nodes, around) ::
        placedAll (.atBlock name params paramsSpan span nodes :: around) nodes
  | node => [(node, around)]

/-- The nodes of a forest, each with the nodes it lies in, in document order. -/
def placedAll (around : List Node) : List Node → List (Node × List Node)
  | [] => []
  | node :: rest => node.placed around ++ placedAll around rest

end

/-- Whether a node is a keyframes at-rule with a block. -/
def isKeyframes : Node → Bool
  | .atBlock name _ _ _ _ => isKeyframesName name
  | _ => false

/-- The selector of a rule that lies in no keyframes. -/
def scopedSelector? : Node × List Node → Option Text
  | (.rule selector _ _ _, around) =>
      if around.any isKeyframes then none else some selector
  | _ => none

end Node

/-- The selectors of the rules that lie in no keyframes, in document order. -/
def Stylesheet.scopedSelectors (sheet : Stylesheet) : List Text :=
  (Node.placedAll [] sheet.nodes).filterMap Node.scopedSelector?

namespace Node

mutual

theorem filterMap_placed :
    (node : Node) → (around : List Node) →
      (node.placed around).filterMap scopedSelector? =
        if around.any isKeyframes then [] else Exported.selectorsOf node
  | .rule selector selectorSpan span nodes, around => by
      have below := filterMap_placedAll nodes (.rule selector selectorSpan span nodes :: around)
      rw [List.any_cons] at below
      rw [placed, List.filterMap_cons, below, scopedSelector?, Exported.selectorsOf]
      cases around.any isKeyframes <;> rfl
  | .atBlock name params paramsSpan span nodes, around => by
      have below :=
        filterMap_placedAll nodes (.atBlock name params paramsSpan span nodes :: around)
      rw [List.any_cons, isKeyframes] at below
      have own : scopedSelector? (.atBlock name params paramsSpan span nodes, around) = none := rfl
      rw [placed, List.filterMap_cons, below, own, Exported.selectorsOf]
      cases around.any isKeyframes <;> cases isKeyframesName name <;> rfl
  | .atStatement _ _ _ _, around => by
      cases inside : around.any isKeyframes <;> rfl
  | .declaration _ _ _, around => by cases inside : around.any isKeyframes <;> rfl
  | .comment _ _, around => by cases inside : around.any isKeyframes <;> rfl

/-- Nodes in keyframes have no selectors that count. -/
theorem filterMap_placedAll :
    (nodes : List Node) → (around : List Node) →
      (placedAll around nodes).filterMap scopedSelector? =
        if around.any isKeyframes then [] else Exported.selectorsAll nodes
  | [], around => by cases inside : around.any isKeyframes <;> rfl
  | node :: rest, around => by
      rw [placedAll, List.filterMap_append, filterMap_placed node around,
        filterMap_placedAll rest around, Exported.selectorsAll]
      cases around.any isKeyframes <;> rfl

end

end Node

theorem Stylesheet.scopedSelectors_eq (sheet : Stylesheet) :
    sheet.scopedSelectors = Exported.selectorsAll sheet.nodes :=
  Node.filterMap_placedAll sheet.nodes []

/-- Some names without repetitions, in the order in which a list first has them. -/
structure FirstSeen (seen names : List Text) : Prop where
  nodup : seen.Nodup
  mem_iff : ∀ name, name ∈ seen ↔ name ∈ names
  ordered : seen.Pairwise fun left right => names.idxOf left < names.idxOf right

/-- Names that a filter keeps occur in the same order before it. -/
theorem idxOf_lt_of_filter
    {names : List Text}
    {keeps : Text → Bool}
    {left right : Text}
    (keptLeft : keeps left = true)
    (keptRight : keeps right = true)
    (before : (names.filter keeps).idxOf left < (names.filter keeps).idxOf right) :
    names.idxOf left < names.idxOf right := by
  induction names with
  | nil => exact before
  | cons name rest inductionHypothesis =>
      by_cases kept : keeps name = true
      · rw [List.filter_cons_of_pos kept] at before
        rw [List.idxOf_cons, List.idxOf_cons] at before ⊢
        generalize (name == left) = isLeft at before ⊢
        generalize (name == right) = isRight at before ⊢
        cases isLeft <;> cases isRight
        · exact Nat.succ_lt_succ (inductionHypothesis (Nat.lt_of_succ_lt_succ before))
        · exact absurd before (Nat.not_lt_zero _)
        · exact Nat.succ_pos _
        · exact absurd before (Nat.not_lt_zero _)
      · rw [List.filter_cons_of_neg kept] at before
        have differs {other : Text} (keptOther : keeps other = true) : name ≠ other :=
          fun same => kept (same ▸ keptOther)
        rw [List.idxOf_cons_ne _ (differs keptLeft), List.idxOf_cons_ne _ (differs keptRight)]
        exact Nat.succ_lt_succ (inductionHypothesis before)

theorem firstSeen_eraseDups (names : List Text) : FirstSeen names.eraseDups names := by
  induction names using Text.eraseDups_induction with
  | nil => exact ⟨.nil, fun _ => Iff.rfl, .nil⟩
  | cons name rest later =>
      have others : ∀ other ∈ (rest.filter fun other => !other == name).eraseDups,
          other ≠ name := by
        intro other present
        have among := (List.mem_filter.mp (List.mem_eraseDups.mp present)).2
        simpa using among
      refine ⟨?_, fun other => List.mem_eraseDups, ?_⟩
      · rw [List.eraseDups_cons]
        exact List.nodup_cons.mpr ⟨fun present => others name present rfl, later.nodup⟩
      · rw [List.eraseDups_cons]
        refine List.pairwise_cons.mpr ⟨fun other present => ?_, ?_⟩
        · rw [List.idxOf_cons_self, List.idxOf_cons_ne _ (others other present).symm]
          exact Nat.succ_pos _
        · refine later.ordered.imp_of_mem fun {left right} isLeft isRight before => ?_
          rw [List.idxOf_cons_ne _ (others left isLeft).symm,
            List.idxOf_cons_ne _ (others right isRight).symm]
          refine Nat.succ_lt_succ (idxOf_lt_of_filter ?_ ?_ before)
          · simpa using others left isLeft
          · simpa using others right isRight

open Selector

/-- A style sheet whose rules outside keyframes have well nested selectors exports the local
classes of these, each once, in the order in which they first occur. -/
theorem Stylesheet.exported_of_isWellNested
    {sheet : Stylesheet}
    {structureOf : Text → List Piece}
    (nested : ∀ selector ∈ sheet.scopedSelectors,
      IsWellNested selector (structureOf selector)) :
    FirstSeen sheet.exported
      (sheet.scopedSelectors.flatMap fun selector => Piece.locals (structureOf selector)) := by
  have found : Exported.ofForest sheet.nodes =
      sheet.scopedSelectors.flatMap fun selector => Piece.locals (structureOf selector) := by
    rw [Exported.ofForest_eq_flatMap, ← sheet.scopedSelectors_eq]
    exact List.flatMap_congr fun selector present => (nested selector present).classes_eq
  unfold Stylesheet.exported
  rw [found]
  exact firstSeen_eraseDups _

/-- Nested markers in parentheses, and a marker by itself that ends at a comma. -/
def markedSelector : Text :=
  ['.', 'a', ':', 'g', 'l', 'o', 'b', 'a', 'l', '(', '.', 'b', ':', 'L', 'O', 'C', 'A', 'L', '(',
   '.', 'c', ')', ')', ' ', ':', 'g', 'l', 'o', 'b', 'a', 'l', ' ', '.', 'd', ',', '.', 'e']

/-- An escaped class among an id, an attribute test and a pseudo-class that is no marker. -/
def mixedSelector : Text :=
  ['#', 'f', '.', '\\', '3', '1', ' ', '[', 'x', '=', '"', ']', '"', ']', ':', 'n', 'o', 't', '(',
   '.', 'g', ')']

/-- A style sheet with these selectors, one of them in an at-rule, and a rule in keyframes. -/
def scopedSheet : Stylesheet :=
  { nodes :=
      [ .rule markedSelector ⟨0, 0⟩ ⟨0, 0⟩ [],
        .atBlock "media" "print" ⟨0, 0⟩ ⟨0, 0⟩ [.rule mixedSelector ⟨0, 0⟩ ⟨0, 0⟩ []],
        .atBlock "keyframes" "x" ⟨0, 0⟩ ⟨0, 0⟩ [.rule ".h" ⟨0, 0⟩ ⟨0, 0⟩ []] ]
    span := ⟨0, 0⟩ }

/-- The structure of these selectors. -/
def scopedStructure (selector : Text) : List Piece :=
  if selector = markedSelector then
    [ .className ['a'],
      .parens (some true) [.className ['b'], .parens (some false) [.className ['c']]],
      .marker true, .className ['d'], .comma, .className ['e'] ]
  else
    [.className ['1'], .parens none [.className ['g']]]

theorem exported_of_isWellNested_scoped :
    (∀ selector ∈ scopedSheet.scopedSelectors,
      IsWellNested selector (scopedStructure selector)) ∧
      FirstSeen scopedSheet.exported
        ["a".toList, "c".toList, "e".toList, "1".toList, "g".toList] := by
  have first {holds : Char → Prop} {c : Char} (own : holds c) (rest : Text) :
      ∀ other ∈ (c :: rest).head?, holds other := by
    rintro other ⟨⟩
    exact own
  have begins (c : Char) (rest : Text) (isName : isNameChar c = true)
      (noDigit : c.isDigit = false) : BeginsClass (c :: rest) :=
    ⟨c, rfl, .inr ⟨isName, noDigit⟩⟩
  have letter (c : Char) (rest : Text) (isName : isNameChar c = true)
      (ends : ∀ other ∈ rest.head?, isNameChar other = false ∧ other ≠ '\\') :
      Spelled (c :: rest) [c] rest :=
    .char isName (.stop ends)
  have global (rest : Text) (ends : ∀ c ∈ rest.head?, isNameChar c = false ∧ c ≠ '\\') :
      Spelled ('g' :: 'l' :: 'o' :: 'b' :: 'a' :: 'l' :: rest)
        ['g', 'l', 'o', 'b', 'a', 'l'] rest :=
    .char rfl (.char rfl (.char rfl (.char rfl (.char rfl (letter 'l' rest rfl ends)))))
  have space (rest : Text) : Skips (' ' :: rest) rest :=
    .other (by decide) (by simp)
  have ends (rest : Text) : ∀ c ∈ (')' :: rest).head?, c = ')' := by
    rintro c ⟨⟩
    rfl
  have digits : ∀ digit ∈ ['3', '1'], isHexDigit digit = true :=
    List.forall_mem_cons.mpr ⟨rfl, List.forall_mem_singleton.mpr rfl⟩
  have noDigit : isHexDigit ' ' = false := rfl
  have opens : isNameChar '(' = false ∧ '(' ≠ '\\' := by decide
  have closes : isNameChar ')' = false ∧ ')' ≠ '\\' := by decide
  have marked : IsWellNested markedSelector (scopedStructure markedSelector) :=
    .className (begins 'a' _ rfl rfl) (letter 'a' _ rfl (first (by decide) _)) <|
    .function (global _ (first opens _)) (by decide +kernel)
      (.className (begins 'b' _ rfl rfl) (letter 'b' _ rfl (first (by decide) _)) <|
        .function
          (.char rfl (.char rfl (.char rfl (.char rfl (letter 'L' _ rfl (first opens _))))))
          (by decide +kernel)
          (.className (begins 'c' _ rfl rfl) (letter 'c' _ rfl (first closes _))
            (.stop (ends _)))
          (.stop (ends _))) <|
    .skip (space _) <|
    .marker (global _ (first (by decide) _)) (by decide +kernel) (by decide) <|
    .skip (space _) <|
    .className (begins 'd' _ rfl rfl) (letter 'd' _ rfl (first (by decide) _)) <|
    .comma <|
    .className (begins 'e' _ rfl rfl) (letter 'e' _ rfl nofun) (.stop nofun)
  have mixed : Consists true mixedSelector
      [.className ['1'], .parens none [.className ['g']]] [] :=
    .skip (.id (letter 'f' _ rfl (first (by decide) _))) <|
    .className ⟨'\\', rfl, .inl rfl⟩
      (@Spelled.code ['3', '1'] _ _ _ digits (by decide) (by decide)
        (.inr (first noDigit _)) (.stop (first (by decide) _))) <|
    .skip (.test (.char (by decide) (.char (by decide)
      (.quoted (.inl rfl) (.char (by decide) (by decide) (.close _)) (.close _))))) <|
    .function (.char rfl (.char rfl (letter 't' _ rfl (first opens _)))) (by decide +kernel)
      (.className (begins 'g' _ rfl rfl) (letter 'g' _ rfl (first closes _))
        (.stop (ends _))) <|
    .stop nofun
  have nested : ∀ selector ∈ scopedSheet.scopedSelectors,
      IsWellNested selector (scopedStructure selector) := by
    have selectors : scopedSheet.scopedSelectors = [markedSelector, mixedSelector] := by
      decide +kernel
    rw [selectors]
    intro selector present
    rcases List.mem_cons.mp present with rfl | isMixed
    · exact marked
    · rw [List.mem_singleton.mp isMixed, scopedStructure, if_neg (by decide)]
      exact mixed
  have found := Stylesheet.exported_of_isWellNested nested
  have names : scopedSheet.scopedSelectors.flatMap
      (fun selector => Piece.locals (scopedStructure selector)) =
        ["a".toList, "c".toList, "e".toList, "1".toList, "g".toList] := by
    decide +kernel
  rw [names] at found
  exact ⟨nested, found⟩

end StyleTypings
