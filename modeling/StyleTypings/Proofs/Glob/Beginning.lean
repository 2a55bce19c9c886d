import StyleTypings.Proofs.Glob.Escaping

/-!
# How the paths begin that a glob matches

Most characters stand for themselves in a glob, and in front of the first that does not the paths
that the glob matches are written as the glob is. A slash there is a slash in all of these paths
too, though it may be read as one with two stars behind it. So as far as its directories stand for
themselves a glob matches nothing outside of them.
-/

namespace StyleTypings
namespace Glob

/-- Whether a character stands for itself outside of all choices. -/
def isLiteral (char : Char) : Bool :=
  !(char == '*' || char == '?' || char == '[' || char == '{' || char == '\\')

variable {reader next : Reader} {char : Char} {text front rest after path : Text} {glob : Glob}

/-! ## Reading characters that stand for themselves -/

theorem take_of_isLiteral
    (outside : reader.choices = [])
    (literal : isLiteral char = true)
    (took : reader.take char rest = .ok (next, after)) :
    next = (reader.push (.literal char)).note char ∧ after = rest := by
  unfold Reader.take at took
  split at took
  case h_5 =>
    -- There is no choice that a closing brace could close.
    rw [Reader.closeChoice, outside] at took
    cases took
  case h_6 =>
    obtain ⟨rfl, rfl⟩ := Prod.mk.inj (Except.ok.inj took)
    rw [Reader.comma, outside]
    exact ⟨rfl, rfl⟩
  case h_8 =>
    obtain ⟨rfl, rfl⟩ := Prod.mk.inj (Except.ok.inj took)
    exact ⟨rfl, rfl⟩
  all_goals exact absurd literal (by decide)

/-- Characters that stand for themselves are read one by one. -/
theorem exists_readFrom_of_literal
    {bound : Nat}
    (outside : reader.choices = [])
    (literal : ∀ c ∈ front, isLiteral c = true)
    (enough : (front ++ rest).length < bound)
    (read : readFrom bound reader (front ++ rest) = .ok glob) :
    ∃ bound previous, rest.length < bound ∧
      readFrom bound ⟨(front.map .literal).reverse ++ reader.branch, [], previous⟩ rest =
        .ok glob := by
  induction front generalizing reader bound with
  | nil =>
      obtain ⟨branch, choices, previous⟩ := reader
      obtain rfl : choices = [] := outside
      exact ⟨bound, previous, enough, read⟩
  | cons c others inductionHypothesis =>
      obtain ⟨isFirst, areOthers⟩ := List.forall_mem_cons.mp literal
      cases bound with
      | zero => exact absurd enough (Nat.not_lt_zero _)
      | succ bound =>
          rw [List.cons_append, readFrom] at read
          cases took : reader.take c (others ++ rest) with
          | error problem =>
              rw [took] at read
              cases read
          | ok step =>
              obtain ⟨next, after⟩ := step
              rw [took] at read
              obtain ⟨rfl, rfl⟩ := take_of_isLiteral outside isFirst took
              have outsideToo : ((reader.push (.literal c)).note c).choices = [] := outside
              obtain ⟨left, previous, enoughToo, readToo⟩ := inductionHypothesis outsideToo
                areOthers (Nat.lt_of_succ_lt_succ enough) read
              refine ⟨left, previous, enoughToo, ?_⟩
              rw [List.map_cons, List.reverse_cons, List.append_assoc]
              exact readToo

theorem eq_map_of_literal
    (literal : ∀ c ∈ text, isLiteral c = true)
    (read : ofText text = .ok glob) :
    glob = text.map .literal := by
  rw [ofText, ← List.append_nil text] at read
  obtain ⟨_ | bound, previous, enough, ended⟩ := exists_readFrom_of_literal rfl literal
    (by simp) read
  · exact absurd enough (Nat.not_lt_zero _)
  · have whole : (text.map .literal).reverse.reverse = glob := by
      have same := Except.ok.inj ended
      rwa [Reader.start, List.append_nil] at same
    rw [← whole, List.reverse_reverse]

/-! ## Slashes -/

/-- A part matches only what begins with a slash. -/
def AsksSlash (part : GlobPart) : Prop :=
  ∀ path left, left ∈ remainders part path → ∃ rest, path = slash :: rest

theorem asksSlash_literal : AsksSlash (.literal '/') :=
  fun _ left among => ⟨left, mem_remainders_literal.mp among⟩

theorem asksSlash_tree : FitsTrees AsksSlash := by
  intro atEnd path left among
  cases atEnd with
  | false =>
      obtain ⟨rest, split, -⟩ := mem_remainders_treeInside.mp among
      exact ⟨rest, split⟩
  | true =>
      rw [if_pos rfl, remainders, List.mem_flatMap] at among
      obtain ⟨rest, behind, -⟩ := among
      cases path with
      | nil => cases behind
      | cons byte others =>
          rw [afterSlash, afterOne] at behind
          split at behind
          · next isSlash => exact ⟨others, by rw [beq_iff_eq.mp isSlash]⟩
          · cases behind

theorem not_asksSlash_treeStart : ¬ AsksSlash .treeStart := by
  intro asks
  obtain ⟨rest, split⟩ := asks [] [] List.mem_cons_self
  cases split

/-- Behind characters that stand for themselves a slash is read as a part that asks for one. -/
theorem exists_part_of_slash
    (literal : ∀ c ∈ front, isLiteral c = true)
    (read : ofText (front ++ '/' :: rest) = .ok glob) :
    ∃ part more, glob = front.map .literal ++ part :: more ∧ AsksSlash part := by
  obtain ⟨_ | bound, previous, enough, readOn⟩ := exists_readFrom_of_literal rfl literal
    (Nat.lt_succ_self _) read
  · exact absurd enough (Nat.not_lt_zero _)
  · rw [Reader.start, List.append_nil] at readOn
    have stays := @Reader.stays_push_of_fits ⟨(front.map .literal).reverse, [], previous⟩
      AsksSlash _ rfl asksSlash_literal
    obtain ⟨part, more, rfl, asks⟩ := exists_of_readFrom asksSlash_tree
      (Nat.lt_of_succ_lt_succ enough) readOn stays
    exact ⟨part, more, by rw [List.reverse_reverse], asks⟩

/-! ## What is matched -/

/-- A glob of characters that stand for themselves matches no path but the one that is written
like it. -/
theorem eq_of_doesMatch
    (literal : ∀ c ∈ text, isLiteral c = true)
    (read : ofText text = .ok glob)
    (isMatch : doesMatch glob path = true) :
    path = text := by
  obtain rfl := eq_map_of_literal literal read
  rcases doesMatch_iff.mp isMatch with everything | leaves
  · rw [isEverything_iff, List.map_eq_singleton_iff] at everything
    obtain ⟨c, -, same⟩ := everything
    cases same
  · rw [leaves_literals, List.append_nil] at leaves
    exact Text.bytes_injective leaves

/-- Up to a slash behind characters that stand for themselves a path that a glob matches is
written like the glob. -/
theorem exists_of_doesMatch
    (literal : ∀ c ∈ front, isLiteral c = true)
    (read : ofText (front ++ '/' :: rest) = .ok glob)
    (isMatch : doesMatch glob path = true) :
    ∃ behind, path = front ++ '/' :: behind := by
  obtain ⟨part, more, rfl, asks⟩ := exists_part_of_slash literal read
  rcases doesMatch_iff.mp isMatch with everything | leaves
  · rw [isEverything_iff] at everything
    cases front with
    | nil =>
        obtain ⟨rfl, -⟩ := List.cons.inj everything
        exact absurd asks not_asksSlash_treeStart
    | cons c others => cases everything
  · obtain ⟨between, begins, ends⟩ := leaves_append.mp leaves
    obtain ⟨left, matched, -⟩ := leaves_cons.mp ends
    obtain ⟨bytes, rfl⟩ := asks _ _ matched
    rw [leaves_literals] at begins
    obtain ⟨before, c, behind, rfl, same, -, code⟩ := Text.exists_char_of_bytes (by decide) begins
    obtain rfl : c = '/' := Char.toNat_inj.mp code
    rw [Text.bytes_injective same]
    exact ⟨behind, rfl⟩

end Glob
end StyleTypings
