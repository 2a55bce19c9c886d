import Mathlib.Data.List.Basic
import StyleTypings.Proofs.Text.Bytes
import StyleTypings.Proofs.Text.Joining

/-!
# What globs match

A glob matches part by part, each part leaving the rest of the path to the next one. What a part
may leave is said here in terms of what stands before it, and from that which paths are matched
by a text written out as a glob and by the glob for the style sheets below a directory.
-/

namespace StyleTypings
namespace Glob

variable {part : GlobPart} {parts more : List GlobPart} {path left : Bytes}

/-- Parts match at the front of a path and leave the rest of it. -/
def Leaves (parts : List GlobPart) (path left : Bytes) : Prop :=
  left ∈ allRemainders parts path

theorem leaves_nil : Leaves [] path left ↔ left = path := by
  rw [Leaves, allRemainders, List.mem_singleton]

theorem leaves_cons :
    Leaves (part :: more) path left ↔
      ∃ between ∈ remainders part path, Leaves more between left := by
  rw [Leaves, allRemainders, List.mem_eraseDups, List.mem_flatMap]
  simp only [List.mem_eraseDups, Leaves]

theorem leaves_append :
    Leaves (parts ++ more) path left ↔
      ∃ between, Leaves parts path between ∧ Leaves more between left := by
  induction parts generalizing path with
  | nil => simp [leaves_nil]
  | cons part rest inductionHypothesis =>
      rw [List.cons_append, leaves_cons]
      simp only [inductionHypothesis, leaves_cons]
      constructor
      · rintro ⟨first, matched, between, front, back⟩
        exact ⟨between, ⟨first, matched, front⟩, back⟩
      · rintro ⟨between, ⟨first, matched, front⟩, back⟩
        exact ⟨first, matched, between, front, back⟩

theorem doesMatch_iff {glob : Glob} {path : Text} :
    doesMatch glob path = true ↔ isEverything glob = true ∨ Leaves glob path.bytes [] := by
  rw [doesMatch, Bool.or_eq_true, List.contains_iff_mem, Leaves]

/-! ## Single parts -/

theorem mem_remainders_literal {char : Char} :
    left ∈ remainders (.literal char) path ↔ path = String.utf8EncodeChar char ++ left := by
  rw [remainders, Option.mem_toList, List.isPrefixOf?_eq_some_iff_append_eq, eq_comm]

theorem mem_afterSlashes : left ∈ afterSlashes path ↔ ∃ front, path = front ++ slash :: left := by
  induction path with
  | nil => simp [afterSlashes]
  | cons byte rest inductionHypothesis =>
      have further : (∃ front, byte :: rest = front ++ slash :: left) ↔
          (byte = slash ∧ rest = left) ∨ ∃ front, rest = front ++ slash :: left := by
        constructor
        · rintro ⟨_ | ⟨first, front⟩, same⟩
          · exact .inl (List.cons.inj same)
          · exact .inr ⟨front, (List.cons.inj same).2⟩
        · rintro (⟨rfl, rfl⟩ | ⟨front, rfl⟩)
          · exact ⟨[], rfl⟩
          · exact ⟨byte :: front, rfl⟩
      rw [further, afterSlashes]
      split
      · next isSlash => simp [isSlash, inductionHypothesis, eq_comm]
      · next noSlash => simp [noSlash, inductionHypothesis]

/-- A star leaves what stands behind some bytes of a name. -/
theorem mem_remainders_star :
    left ∈ remainders .star path ↔ ∃ name, path = name ++ left ∧ slash ∉ name := by
  rw [remainders]
  induction path with
  | nil =>
      simp only [withinName, List.mem_singleton]
      constructor
      · rintro rfl
        exact ⟨[], rfl, List.not_mem_nil⟩
      · rintro ⟨name, same, -⟩
        exact (List.append_eq_nil_iff.mp same.symm).2
  | cons byte rest inductionHypothesis =>
      unfold withinName
      constructor
      · intro among
        split at among
        · exact ⟨[], (List.mem_singleton.mp among).symm, List.not_mem_nil⟩
        · next noSlash =>
            rcases List.mem_cons.mp among with rfl | further
            · exact ⟨[], rfl, List.not_mem_nil⟩
            · obtain ⟨name, rfl, without⟩ := inductionHypothesis.mp further
              exact ⟨byte :: name, rfl,
                List.not_mem_cons_of_ne_of_not_mem (fun same => noSlash same.symm) without⟩
      · rintro ⟨_ | ⟨first, name⟩, same, without⟩
        · obtain rfl : byte :: rest = left := same
          split
          · exact List.mem_singleton_self _
          · exact List.mem_cons_self
        · obtain ⟨rfl, rfl⟩ := List.cons.inj same
          have noSlash : byte ≠ slash := fun same => without (same ▸ List.mem_cons_self)
          have others : slash ∉ name := fun among => without (List.mem_cons_of_mem _ among)
          rw [if_neg noSlash]
          exact List.mem_cons_of_mem _ (inductionHypothesis.mpr ⟨name, rfl, others⟩)

/-- Two stars at the start leave the path from any name on. -/
theorem mem_remainders_treeStart :
    left ∈ remainders .treeStart path ↔ left = path ∨ ∃ front, path = front ++ slash :: left := by
  rw [remainders, List.mem_cons, mem_afterSlashes]

/-- Two stars between slashes leave the path from any name behind the first slash on. -/
theorem mem_remainders_treeInside :
    left ∈ remainders .treeInside path ↔
      ∃ rest, path = slash :: rest ∧ (left = rest ∨ ∃ front, rest = front ++ slash :: left) := by
  rw [remainders, List.mem_flatMap]
  cases path with
  | nil => simp [afterSlash, afterOne]
  | cons byte rest =>
      by_cases isSlash : byte = slash
      · simp [afterSlash, afterOne, isSlash, mem_afterSlashes]
      · simp [afterSlash, afterOne, isSlash]

theorem mem_choiceRemainders {branches : List (List GlobPart)} :
    left ∈ choiceRemainders branches path ↔
      ∃ branch ∈ branches, allVoid branch = false ∧ Leaves branch path left := by
  induction branches with
  | nil => simp [choiceRemainders]
  | cons branch rest inductionHypothesis =>
      rw [choiceRemainders]
      split
      · next void => simp [void, inductionHypothesis]
      · next solid => simp [solid, inductionHypothesis, Leaves]

/-! ## Texts as they are -/

/-- Some literals match just their own text. -/
theorem leaves_literals {text : Text} :
    Leaves (text.map .literal) path left ↔ path = text.bytes ++ left := by
  induction text generalizing path with
  | nil => simpa using leaves_nil.trans eq_comm
  | cons c rest inductionHypothesis =>
      rw [List.map_cons, leaves_cons]
      simp only [mem_remainders_literal, inductionHypothesis, Text.bytes_cons, List.append_assoc,
        exists_eq_right]

/-! ## Style sheets -/

/-- Whether a name ends as those of style sheets do. -/
def isSheetName (name : Text) : Bool :=
  ".less".toList.isSuffixOf name || ".css".toList.isSuffixOf name

theorem isSheetName_iff {name : Text} :
    isSheetName name = true ↔
      ∃ front : Text, name = front ++ ".less".toList ∨ name = front ++ ".css".toList := by
  rw [isSheetName, Bool.or_eq_true, List.isSuffixOf_iff_suffix, List.isSuffixOf_iff_suffix,
    exists_or]
  simp only [List.IsSuffix, eq_comm]

/-- The glob for the name of a style sheet. -/
def sheetParts : List GlobPart :=
  [.star, .literal '.', .choice ["less".toList.map .literal, "css".toList.map .literal]]

theorem leaves_sheetParts :
    Leaves sheetParts path [] ↔
      ∃ name, slash ∉ name ∧
        (path = name ++ Text.bytes ".less".toList ∨ path = name ++ Text.bytes ".css".toList) := by
  have ending (between : Bytes) :
      [] ∈ remainders (.choice ["less".toList.map .literal, "css".toList.map .literal]) between ↔
        between = Text.bytes "less".toList ∨ between = Text.bytes "css".toList := by
    rw [remainders, if_neg (by decide), mem_choiceRemainders]
    simp only [List.exists_mem_cons_iff, List.not_mem_nil, false_and, exists_false, or_false,
      leaves_literals, List.append_nil]
    exact or_congr (and_iff_right rfl) (and_iff_right rfl)
  have behind (between : Bytes) :
      Leaves [.literal '.', .choice ["less".toList.map .literal, "css".toList.map .literal]]
          between [] ↔
        between = Text.bytes ".less".toList ∨ between = Text.bytes ".css".toList := by
    rw [leaves_cons]
    simp only [mem_remainders_literal, leaves_cons, leaves_nil]
    constructor
    · rintro ⟨rest, rfl, last, matched, rfl⟩
      exact ((ending rest).mp matched).imp (congrArg _) (congrArg _)
    · intro written
      rcases written with rfl | rfl
      · exact ⟨_, rfl, [], (ending _).mpr (.inl rfl), rfl⟩
      · exact ⟨_, rfl, [], (ending _).mpr (.inr rfl), rfl⟩
  rw [sheetParts, leaves_cons]
  simp only [mem_remainders_star, behind]
  constructor
  · rintro ⟨between, ⟨name, rfl, without⟩, written⟩
    exact ⟨name, without, written.imp (congrArg _) (congrArg _)⟩
  · rintro ⟨name, without, rfl | rfl⟩
    · exact ⟨_, ⟨name, rfl, without⟩, .inl rfl⟩
    · exact ⟨_, ⟨name, rfl, without⟩, .inr rfl⟩

theorem slash_mem_bytes {text : Text} : slash ∈ text.bytes ↔ '/' ∈ text := by
  constructor
  · intro among
    obtain ⟨before, after, split⟩ := List.append_of_mem among
    obtain ⟨front, c, back, rfl, -, -, code⟩ := Text.exists_char_of_bytes (by decide) split
    obtain rfl : c = '/' := Char.toNat_inj.mp code
    exact List.mem_append_right _ List.mem_cons_self
  · intro among
    obtain ⟨front, back, rfl⟩ := List.append_of_mem among
    have own : slash ∈ String.utf8EncodeChar '/' := by decide
    rw [Text.bytes_append, Text.bytes_cons]
    exact List.mem_append_right _ (List.mem_append_left _ own)

/-- The glob for the name of a style sheet matches such names. -/
theorem leaves_sheetParts_bytes {name : Text} :
    Leaves sheetParts name.bytes [] ↔ '/' ∉ name ∧ isSheetName name = true := by
  have ended {front : Bytes} {extension : Text}
      (split : name.bytes = front ++ Text.bytes ('.' :: extension)) :
      ∃ stem : Text, name = stem ++ '.' :: extension ∧ stem.bytes = front := by
    have isByte : Text.bytes ('.' :: extension) = 46 :: extension.bytes := Text.bytes_cons _ _
    rw [isByte] at split
    obtain ⟨stem, c, back, rfl, isFront, same, code⟩ := Text.exists_char_of_bytes (by decide) split
    obtain rfl : c = '.' := Char.toNat_inj.mp code
    exact ⟨stem, by rw [Text.bytes_injective same], isFront⟩
  have plain : '/' ∉ ".less".toList ∧ '/' ∉ ".css".toList := by decide
  rw [leaves_sheetParts, isSheetName_iff]
  constructor
  · rintro ⟨front, without, split | split⟩ <;>
      obtain ⟨stem, rfl, rfl⟩ := ended split <;>
      rw [slash_mem_bytes] at without
    · exact ⟨List.not_mem_append without plain.1, stem, .inl rfl⟩
    · exact ⟨List.not_mem_append without plain.2, stem, .inr rfl⟩
  · rintro ⟨without, stem, rfl | rfl⟩ <;>
      refine ⟨stem.bytes, fun among => without ?_, ?_⟩
    · exact List.mem_append_left _ (slash_mem_bytes.mp among)
    · exact .inl (Text.bytes_append _ _)
    · exact List.mem_append_left _ (slash_mem_bytes.mp among)
    · exact .inr (Text.bytes_append _ _)

/-- The bytes from a name on are those of the text from there on. -/
theorem eq_or_exists_iff {text : Text} :
    (left = text.bytes ∨ ∃ front, text.bytes = front ++ slash :: left) ↔
      ∃ rest : Text, left = rest.bytes ∧ (text = rest ∨ ∃ front, text = front ++ '/' :: rest) := by
  constructor
  · rintro (rfl | ⟨before, split⟩)
    · exact ⟨text, rfl, .inl rfl⟩
    · obtain ⟨front, c, rest, rfl, -, isRest, code⟩ :=
        Text.exists_char_of_bytes (by decide) split
      obtain rfl : c = '/' := Char.toNat_inj.mp code
      exact ⟨rest, isRest.symm, .inr ⟨front, rfl⟩⟩
  · rintro ⟨rest, rfl, rfl | ⟨front, rfl⟩⟩
    · exact .inl rfl
    · exact .inr ⟨front.bytes, Text.bytes_append _ _⟩

/-- From one of some names on, their path is matched as that of a style sheet just if the last
name is one. -/
theorem exists_leaves_sheetParts
    {names : List Text}
    (without : ∀ name ∈ names, '/' ∉ name) :
    (∃ left, (left = (Text.join ['/'] names).bytes ∨
        ∃ front, (Text.join ['/'] names).bytes = front ++ slash :: left) ∧
          Leaves sheetParts left []) ↔
      ∃ name, names.getLast? = some name ∧ isSheetName name = true := by
  have alone {name : Text} (simple : '/' ∉ name) : Text.splitAt '/' name = [name] := by
    have parts := Text.splitAt_join (List.cons_ne_nil name []) (by simpa using simple)
    rwa [Text.join, List.intercalate_singleton] at parts
  simp only [eq_or_exists_iff]
  constructor
  · rintro ⟨_, ⟨rest, rfl, place⟩, matched⟩
    obtain ⟨simple, isSheet⟩ := leaves_sheetParts_bytes.mp matched
    have proper : names ≠ [] := by
      rintro rfl
      rcases place with rfl | ⟨front, split⟩
      · exact absurd isSheet (by decide)
      · exact absurd split (by simp [Text.join])
    have parts := Text.splitAt_join proper without
    refine ⟨rest, ?_, isSheet⟩
    rw [← parts]
    rcases place with whole | ⟨front, split⟩
    · rw [whole, alone simple]
      rfl
    · rw [split, Text.splitAt_append_cons, alone simple, List.getLast?_concat]
  · rintro ⟨name, last, isSheet⟩
    obtain ⟨front, rfl⟩ := List.getLast?_eq_some_iff.mp last
    have simple := without name (by simp)
    refine ⟨name.bytes, ⟨name, rfl, ?_⟩, leaves_sheetParts_bytes.mpr ⟨simple, isSheet⟩⟩
    by_cases first : front = []
    · exact .inl (by rw [first]; exact List.intercalate_singleton)
    · refine .inr ⟨Text.join ['/'] front, ?_⟩
      have parts : Text.splitAt '/' (Text.join ['/'] front ++ '/' :: name) = front ++ [name] := by
        rw [Text.splitAt_append_cons, alone simple,
          Text.splitAt_join first fun part among => without part (by simp [among])]
      rw [← parts, Text.join_splitAt]

end Glob
end StyleTypings
