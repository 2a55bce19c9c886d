import StyleTypings.Proofs.Classes.Gaps
import StyleTypings.Proofs.Stylesheet.Condensing
import StyleTypings.Proofs.Stylesheet.Tiling
import StyleTypings.Text.Bounded

/-!
# Comments and exported classes

Comments outside selectors never matter to the classes that are exported. Selectors are
scanned a second time, by a scanner that knows no comments and takes them for selector
text. So a comment in a selector does not matter if it has none of the characters by which
selectors are read, and no backslash in front of it hides its slash; other comments can
bring classes of their own.
-/

namespace StyleTypings

open Lexer

namespace Selector

/-! ## Comments in selectors -/

/-- Comments that do not matter to the classes of a selector: their characters are inert,
and no backslash hides the first of them. -/
def HarmlessComments (selector : Text) : Prop :=
  ∀ front lexeme back, lexemes .css 0 selector = front ++ lexeme :: back →
    lexeme.kind = .comment →
      (∀ c ∈ lexeme.text, IsInert c) ∧ ¬Text.EndsEscaping (front.flatMap Lexeme.text)

theorem harmlessComments_iff {selector : Text} :
    HarmlessComments selector ↔
      ∀ index, ∀ inside : index < (lexemes .css 0 selector).length,
        (lexemes .css 0 selector)[index].kind = .comment →
          (lexemes .css 0 selector)[index].text.all (decide <| IsInert ·) = true ∧
            ¬Text.EndsEscaping (((lexemes .css 0 selector).take index).flatMap Lexeme.text) := by
  constructor
  · intro harmless index inside isComment
    obtain ⟨inert, plain⟩ := harmless ((lexemes .css 0 selector).take index)
      (lexemes .css 0 selector)[index] ((lexemes .css 0 selector).drop (index + 1))
      (by rw [List.getElem_cons_drop, List.take_append_drop]) isComment
    exact ⟨List.all_eq_true.mpr fun c present => decide_eq_true (inert c present), plain⟩
  · intro harmless front lexeme back split isComment
    have inside : front.length < (lexemes .css 0 selector).length := by
      rw [split, List.length_append, List.length_cons]
      omega
    have found : (lexemes .css 0 selector)[front.length] = lexeme := by
      simp [split]
    have before : (lexemes .css 0 selector).take front.length = front := by
      rw [split, List.take_left]
    obtain ⟨inert, plain⟩ := harmless front.length inside (by rw [found]; exact isComment)
    rw [found] at inert
    rw [before] at plain
    exact ⟨fun c present => of_decide_eq_true (List.all_eq_true.mp inert c present), plain⟩

instance (selector : Text) : Decidable (HarmlessComments selector) :=
  decidable_of_iff _ harmlessComments_iff.symm

/-- The backslash at the end of a text that hides what comes next, if there is one. -/
def escapeAtEnd (front : Text) : Text :=
  if front.EndsEscaping then ['\\'] else []

theorem escapeAtEnd_of_not
    {front : Text}
    (plain : ¬front.EndsEscaping) :
    escapeAtEnd front = [] :=
  if_neg plain

/-- Inert characters hide nothing. -/
theorem escapeAtEnd_append_inert
    {text : Text}
    (nonempty : text ≠ [])
    (inert : ∀ c ∈ text, IsInert c)
    (front : Text) :
    escapeAtEnd (front ++ text) = [] := by
  refine escapeAtEnd_of_not ?_
  rw [← List.dropLast_append_getLast nonempty, ← List.append_assoc, endsEscaping_concat]
  exact fun escapes => ne_of_isInert (inert _ (List.getLast_mem nonempty)) (by decide) escapes.1

theorem Clears.cons_escapeAtEnd
    {front text other : Text}
    (c : Char)
    (clears : Clears (escapeAtEnd (front ++ [c]) ++ text) (escapeAtEnd (front ++ [c]) ++ other)) :
    Clears (escapeAtEnd front ++ c :: text) (escapeAtEnd front ++ c :: other) := by
  unfold escapeAtEnd at clears ⊢
  by_cases hides : front.EndsEscaping
  · rw [if_neg fun escapes => ((endsEscaping_concat front c).mp escapes).2 hides] at clears
    rw [if_pos hides]
    exact .escape c clears
  · rw [if_neg hides]
    by_cases escape : c = '\\'
    · rw [if_pos ((endsEscaping_concat front c).mpr ⟨escape, hides⟩)] at clears
      rw [escape]
      exact clears
    · rw [if_neg fun escapes => escape ((endsEscaping_concat front c).mp escapes).1] at clears
      exact .keep escape clears

/-- Texts go on differing in gaps only behind the same characters. -/
theorem Clears.append_escapeAtEnd
    {front text other : Text}
    (middle : Text)
    (clears : Clears (escapeAtEnd (front ++ middle) ++ text)
      (escapeAtEnd (front ++ middle) ++ other)) :
    Clears (escapeAtEnd front ++ (middle ++ text)) (escapeAtEnd front ++ (middle ++ other)) := by
  induction middle generalizing front with
  | nil =>
      rw [List.append_nil] at clears
      exact clears
  | cons c rest inductionHypothesis =>
      rw [List.append_cons] at clears
      exact (inductionHypothesis clears).cons_escapeAtEnd c

variable {width : Text → Nat}

theorem HarmlessComments.clears_from
    {selector : Text}
    (harmless : HarmlessComments selector)
    (wide : ∀ text, text.length ≤ width text)
    {front back : List Lexeme}
    (split : lexemes .css 0 selector = front ++ back) :
    Clears (escapeAtEnd (front.flatMap Lexeme.text) ++ back.flatMap Lexeme.text)
      (escapeAtEnd (front.flatMap Lexeme.text) ++ back.flatMap (blankComment width)) := by
  induction back generalizing front with
  | nil =>
      rw [List.flatMap_nil, List.flatMap_nil, List.append_nil]
      unfold escapeAtEnd
      split
      · exact .lone
      · exact .nil
  | cons lexeme back inductionHypothesis =>
      have later := inductionHypothesis (split.trans (List.append_cons front lexeme back))
      rw [List.flatMap_append, List.flatMap_singleton] at later
      rw [List.flatMap_cons, List.flatMap_cons]
      by_cases isComment : lexeme.kind = .comment
      · obtain ⟨inert, plain⟩ := harmless front lexeme back split isComment
        have present : lexeme ∈ lexemes .css 0 selector := by
          rw [split]
          exact List.mem_append_right front List.mem_cons_self
        obtain ⟨body, count, isText, spaces⟩ := exists_gap wide lexeme present isComment
        rw [escapeAtEnd_append_inert (by rw [isText]; exact List.cons_ne_nil _ _) inert] at later
        rw [escapeAtEnd_of_not plain, spaces, isText]
        rw [isText] at inert
        exact .gap count (fun c present => inert c (List.mem_cons_of_mem _ present)) later
      · rw [blankComment_of_ne isComment]
        exact later.append_escapeAtEnd lexeme.text

/-- A selector with harmless comments has the classes that it has with spaces for them. -/
theorem HarmlessComments.classes_blankComments
    {selector : Text}
    (harmless : HarmlessComments selector)
    (wide : ∀ text, text.length ≤ width text) :
    classes (blankComments width selector) = classes selector := by
  have clears := harmless.clears_from wide (List.nil_append (lexemes .css 0 selector)).symm
  rw [flatMap_text_lexemes] at clears
  exact (clears.classesFrom_eq Scopes.start).symm

end Selector

namespace Parser

open Selector

/-- With spaces for its comments a text has the same selectors, with spaces for the
comments in them. If the comments in selectors are harmless, it exports the same classes
in the same order. -/
theorem exported_parse_blankComments
    {width : Text → Nat}
    (wide : ∀ text, text.length ≤ width text)
    (source : Text) :
    Exported.selectorsAll (parse (blankComments width source)).sheet.nodes =
        (Exported.selectorsAll (parse source).sheet.nodes).map (blankComments width) ∧
      ((∀ selector ∈ Exported.selectorsAll (parse source).sheet.nodes,
          HarmlessComments selector) →
        (parse (blankComments width source)).sheet.exported = (parse source).sheet.exported) := by
  have selectors := selectorsAll_parse_blankComments wide source
  refine ⟨selectors, fun harmless => ?_⟩
  unfold Stylesheet.exported
  rw [Exported.ofForest_eq_flatMap, Exported.ofForest_eq_flatMap, selectors, List.flatMap_map]
  refine congrArg List.eraseDups (List.flatMap_congr fun selector present => ?_)
  exact (harmless selector present).classes_blankComments wide

/-- A text with comments between rules, in the params of an at-rule, in selectors, one of
them behind an escape, and in a value. -/
def commented : Text :=
  "/*.x*/@media /*(.y)*/ print\x7b.a /*é*/ .c/**/::before,.d/*\x7b*/\x7bcolor:/*.z*/red\x7d\x7d" ++
    ".e\\31/**/f\x7b\x7d"

theorem exported_parse_commented :
    (∀ text : Text, text.length ≤ text.byteSize) ∧
      (∀ selector ∈ Exported.selectorsAll (parse commented).sheet.nodes,
        HarmlessComments selector) ∧
        (parse (blankComments Text.byteSize commented)).sheet.exported =
          ["a".toList, "c".toList, "d".toList, "e1".toList] := by
  have harmless : ∀ selector ∈ Exported.selectorsAll (parse commented).sheet.nodes,
      HarmlessComments selector := by
    decide +kernel
  refine ⟨Text.length_le_byteSize, harmless, ?_⟩
  rw [(exported_parse_blankComments Text.length_le_byteSize commented).2 harmless]
  decide +kernel

/-- What looks like a class in a comment between two classes of a selector is exported. -/
theorem exported_parse_comment_between_classes :
    (parse ".a /* .b */ .c \x7b\x7d").faults = [] ∧
      (parse ".a /* .b */ .c \x7b\x7d").sheet.exported =
        ["a".toList, "b".toList, "c".toList] ∧
        blankComments List.length ".a /* .b */ .c \x7b\x7d" = ".a          .c \x7b\x7d".toList ∧
          (parse ".a          .c \x7b\x7d").sheet.exported = ["a".toList, "c".toList] := by
  decide +kernel

end Parser
end StyleTypings
