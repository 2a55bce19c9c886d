import Mathlib.Data.List.TakeWhile
import StyleTypings.Proofs.Stylesheet.Lexing

/-!
# How far scans reach

Runs of characters, comments and strings are scanned to their ends, and line comments of
LESS up to the end of their line. A scan gives the same in as much of a text as it takes
in, and in a longer text if it does not stop for want of characters.
-/

namespace StyleTypings
namespace Lexer

/-! ## Characters that pass a test -/

theorem countWhile_le (test : Char → Bool) (text : Text) :
    countWhile test text ≤ text.length :=
  (List.takeWhile_sublist test).length_le

theorem countWhile_of_forall
    {test : Char → Bool}
    {text : Text}
    (passes : ∀ c ∈ text, test c = true) :
    countWhile test text = text.length :=
  congrArg List.length (List.takeWhile_eq_self_iff.mpr passes)

theorem countWhile_take (test : Char → Bool) (text : Text) (count : Nat) :
    countWhile test (text.take count) = min count (countWhile test text) := by
  induction text generalizing count with
  | nil => simp [countWhile]
  | cons c rest inductionHypothesis =>
      cases count with
      | zero => simp [countWhile]
      | succ less =>
          have later := inductionHypothesis less
          unfold countWhile at later ⊢
          rw [List.take_succ_cons, List.takeWhile_cons, List.takeWhile_cons]
          split
          · rw [List.length_cons, List.length_cons, later]
            omega
          · simp

/-- Counting that stops inside a text is the same whatever follows. -/
theorem countWhile_append_of_lt
    {test : Char → Bool}
    {text : Text}
    (inside : countWhile test text < text.length)
    (more : Text) :
    countWhile test (text ++ more) = countWhile test text := by
  unfold countWhile at inside ⊢
  rw [List.takeWhile_append, if_neg (Nat.ne_of_lt inside)]

/-- Counting that takes in a text goes on behind it. -/
theorem countWhile_append_of_eq
    {test : Char → Bool}
    {text : Text}
    (whole : countWhile test text = text.length)
    (more : Text) :
    countWhile test (text ++ more) = text.length + countWhile test more := by
  unfold countWhile at whole ⊢
  rw [List.takeWhile_append, if_pos whole, List.length_append]

theorem countWhile_of_head?
    {test : Char → Bool}
    {text : Text}
    (stops : ∀ c ∈ text.head?, test c = false) :
    countWhile test text = 0 := by
  cases text with
  | nil => rfl
  | cons c rest =>
      unfold countWhile
      rw [List.takeWhile_cons, stops c rfl]
      rfl

/-- A run of characters that stops inside a text, or before a space, goes on for as
long with what follows. -/
theorem countWhile_append
    {test : Char → Bool}
    {text more : Text}
    (ends : countWhile test text < text.length ∨ ∀ c ∈ more.head?, test c = false) :
    countWhile test (text ++ more) = countWhile test text := by
  rcases Nat.lt_or_eq_of_le (countWhile_le test text) with inside | whole
  · exact countWhile_append_of_lt inside more
  · have stops := ends.resolve_left (Nat.not_lt_of_le (Nat.le_of_eq whole.symm))
    rw [countWhile_append_of_eq whole, countWhile_of_head? stops, whole]
    rfl

/-- Characters counted by a test pass it. -/
theorem test_of_mem_take_countWhile
    {test : Char → Bool}
    {text : Text}
    {c : Char}
    (present : c ∈ text.take (countWhile test text)) :
    test c = true := by
  have taken : text.take (countWhile test text) = text.takeWhile test :=
    List.prefix_iff_eq_take.mp (List.takeWhile_prefix test) |>.symm
  rw [taken] at present
  exact List.all_eq_true.mp List.all_takeWhile c present

theorem drop_countWhile (test : Char → Bool) (text : Text) :
    text.drop (countWhile test text) = text.dropWhile test := by
  unfold countWhile
  induction text with
  | nil => rfl
  | cons c rest inductionHypothesis =>
      rw [List.takeWhile_cons, List.dropWhile_cons]
      split
      · exact inductionHypothesis
      · rfl

/-- Behind a run of characters is one that fails the test, or nothing. -/
theorem test_of_head?_drop_countWhile
    {test : Char → Bool}
    {text : Text} :
    ∀ c ∈ (text.drop (countWhile test text)).head?, test c = false := by
  intro c isFirst
  have stops := List.head?_dropWhile_not test text
  rw [drop_countWhile] at isFirst
  rw [isFirst] at stops
  simpa using stops

/-! ## Comments -/

theorem commentEnd?_le
    {text : Text}
    {count : Nat}
    (found : commentEnd? text = some count) :
    count ≤ text.length := by
  fun_induction commentEnd? text generalizing count with
  | case1 => exact absurd found nofun
  | case2 rest =>
      obtain rfl := Option.some.inj found
      simp
  | case3 c rest noEnd inductionHypothesis =>
      obtain ⟨less, later, rfl⟩ := Option.map_eq_some_iff.mp found
      have bound := inductionHypothesis later
      rw [List.length_cons]
      omega

/-- The end of a comment is found whatever follows. -/
theorem commentEnd?_append
    {text : Text}
    {count : Nat}
    (found : commentEnd? text = some count)
    (more : Text) :
    commentEnd? (text ++ more) = some count := by
  fun_induction commentEnd? text generalizing count with
  | case1 => exact absurd found nofun
  | case2 rest => exact found
  | case3 c rest noEnd inductionHypothesis =>
      obtain ⟨less, later, rfl⟩ := Option.map_eq_some_iff.mp found
      have noEndBefore (body : Text) (isStar : c = '*') : rest ++ more ≠ '/' :: body := by
        cases rest with
        | nil => exact absurd later nofun
        | cons second others =>
            intro split
            rw [List.cons_append] at split
            exact noEnd others isStar (by rw [(List.cons.inj split).1])
      rw [List.cons_append, commentEnd?, inductionHypothesis later]
      · rfl
      · exact noEndBefore

/-- The end of a comment is found in as much of a text as reaches it. -/
theorem commentEnd?_take
    {text : Text}
    {count limit : Nat}
    (found : commentEnd? text = some count)
    (enough : count ≤ limit) :
    commentEnd? (text.take limit) = some count := by
  fun_induction commentEnd? text generalizing count limit with
  | case1 => exact absurd found nofun
  | case2 rest =>
      obtain rfl := Option.some.inj found
      obtain ⟨less, rfl⟩ := Nat.exists_eq_add_of_le' enough
      rfl
  | case3 c rest noEnd inductionHypothesis =>
      obtain ⟨less, later, rfl⟩ := Option.map_eq_some_iff.mp found
      obtain ⟨smaller, rfl⟩ : ∃ smaller, limit = smaller + 1 := ⟨limit - 1, by omega⟩
      have noEndWithin (body : Text) (isStar : c = '*') : rest.take smaller ≠ '/' :: body := by
        cases rest with
        | nil => exact absurd later nofun
        | cons second others =>
            cases smaller with
            | zero => exact nofun
            | succ fewer =>
                intro split
                rw [List.take_succ_cons] at split
                exact noEnd others isStar (by rw [(List.cons.inj split).1])
      rw [List.take_succ_cons, commentEnd?, inductionHypothesis later (by omega)]
      · rfl
      · exact noEndWithin

/-- A comment ends with a slash. -/
theorem getLast?_take_commentEnd?
    {text : Text}
    {count : Nat}
    (found : commentEnd? text = some count) :
    (text.take count).getLast? = some '/' := by
  fun_induction commentEnd? text generalizing count with
  | case1 => exact absurd found nofun
  | case2 rest =>
      obtain rfl := Option.some.inj found
      rfl
  | case3 c rest noEnd inductionHypothesis =>
      obtain ⟨less, later, rfl⟩ := Option.map_eq_some_iff.mp found
      rw [List.take_succ_cons, List.getLast?_cons, inductionHypothesis later]
      rfl

/-! ## Strings -/

theorem stringEnd_cons
    {c : Char}
    (plain : c ≠ '\\')
    (quote : Char)
    (rest : Text) :
    stringEnd quote (c :: rest) =
      if c = '\n' then (0, false)
      else if c = quote then (1, true)
      else ((stringEnd quote rest).1 + 1, (stringEnd quote rest).2) := by
  rw [stringEnd]
  · exact fun same _ => plain same
  · exact fun _ _ same _ => plain same

/-- What is no escape at the front of a text does not begin with a backslash. -/
theorem ne_backslash
    {c : Char}
    {rest : Text}
    (noEnd : c = '\\' → rest = [] → False)
    (noEscape : ∀ head body, c = '\\' → rest = head :: body → False) :
    c ≠ '\\' := by
  intro same
  cases rest with
  | nil => exact noEnd same rfl
  | cons head body => exact noEscape head body same rfl

theorem stringEnd_le (quote : Char) (text : Text) :
    (stringEnd quote text).1 ≤ text.length := by
  fun_induction stringEnd quote text with
  | case1 => exact Nat.le_refl _
  | case2 => exact Nat.le_refl _
  | case3 c rest reached inductionHypothesis => exact Nat.add_le_add_right inductionHypothesis 2
  | case4 => exact Nat.zero_le _
  | case5 => exact Nat.succ_le_succ (Nat.zero_le _)
  | case6 c rest _ _ _ _ reached inductionHypothesis =>
      exact Nat.add_le_add_right inductionHypothesis 1

/-- A string that is closed, or stops inside a text, does so whatever follows. -/
theorem stringEnd_append
    {quote : Char}
    {text : Text}
    (ends : (stringEnd quote text).1 < text.length ∨ (stringEnd quote text).2 = true)
    (more : Text) :
    stringEnd quote (text ++ more) = stringEnd quote text := by
  fun_induction stringEnd quote text with
  | case1 => simp at ends
  | case2 => simp at ends
  | case3 c rest reached inductionHypothesis =>
      have later : reached.1 < rest.length ∨ reached.2 = true := by simpa using ends
      rw [List.cons_append, List.cons_append, stringEnd, inductionHypothesis later]
  | case4 rest noEnd noEscape =>
      rw [List.cons_append, stringEnd_cons (ne_backslash noEnd noEscape), if_pos rfl]
  | case5 rest noEnd noEscape noFeed =>
      rw [List.cons_append, stringEnd_cons (ne_backslash noEnd noEscape), if_neg noFeed,
        if_pos rfl]
  | case6 c rest noEnd noEscape noFeed noQuote reached inductionHypothesis =>
      have later : reached.1 < rest.length ∨ reached.2 = true := by simpa using ends
      rw [List.cons_append, stringEnd_cons (ne_backslash noEnd noEscape), if_neg noFeed,
        if_neg noQuote, inductionHypothesis later]

/-- A string ends in as much of a text as it takes in. -/
theorem stringEnd_take (quote : Char) (text : Text) :
    ∀ limit, (stringEnd quote text).1 ≤ limit →
      stringEnd quote (text.take limit) = stringEnd quote text := by
  fun_induction stringEnd quote text with
  | case1 =>
      intro limit _
      rw [List.take_nil, stringEnd]
  | case2 =>
      intro limit enough
      rw [List.take_of_length_le enough]
      exact stringEnd.eq_2 quote
  | case3 c rest reached inductionHypothesis =>
      intro limit enough
      obtain ⟨less, rfl⟩ := Nat.exists_eq_add_of_le' (Nat.le_trans (Nat.le_add_left 2 _) enough)
      rw [List.take_succ_cons, List.take_succ_cons, stringEnd,
        inductionHypothesis less (Nat.le_of_add_le_add_right enough)]
  | case4 rest noEnd noEscape =>
      intro limit _
      cases limit with
      | zero => rw [List.take_zero, stringEnd]
      | succ less =>
          rw [List.take_succ_cons, stringEnd_cons (ne_backslash noEnd noEscape), if_pos rfl]
  | case5 rest noEnd noEscape noFeed =>
      intro limit enough
      obtain ⟨less, rfl⟩ := Nat.exists_eq_add_of_le' enough
      rw [List.take_succ_cons, stringEnd_cons (ne_backslash noEnd noEscape), if_neg noFeed,
        if_pos rfl]
  | case6 c rest noEnd noEscape noFeed noQuote reached inductionHypothesis =>
      intro limit enough
      obtain ⟨less, rfl⟩ := Nat.exists_eq_add_of_le' (Nat.le_trans (Nat.le_add_left 1 _) enough)
      rw [List.take_succ_cons, stringEnd_cons (ne_backslash noEnd noEscape), if_neg noFeed,
        if_neg noQuote, inductionHypothesis less (Nat.le_of_add_le_add_right enough)]

/-- A string that is closed ends with its quote. -/
theorem getLast?_take_stringEnd
    {quote : Char}
    {text : Text}
    (closed : (stringEnd quote text).2 = true) :
    (text.take (stringEnd quote text).1).getLast? = some quote := by
  fun_induction stringEnd quote text with
  | case1 => exact absurd closed nofun
  | case2 => exact absurd closed nofun
  | case3 c rest reached inductionHypothesis =>
      rw [List.take_succ_cons, List.take_succ_cons, List.getLast?_cons, List.getLast?_cons,
        inductionHypothesis closed]
      rfl
  | case4 => exact absurd closed nofun
  | case5 => rfl
  | case6 c rest _ _ _ _ reached inductionHypothesis =>
      rw [List.take_succ_cons, List.getLast?_cons, inductionHypothesis closed]
      rfl

/-! ## Line comments -/

/-- Only in LESS and outside parentheses two slashes begin a comment, which reaches up to
the next line feed. -/
theorem classify_lineComment
    {dialect : Dialect}
    {depth : Nat}
    {first : Char}
    {rest : Text}
    (isComment : (classify dialect depth first rest).1 = .lineComment) :
    dialect = .less ∧ depth = 0 ∧ first = '/' ∧ rest.head? = some '/' ∧
      (classify dialect depth first rest).2 = countWhile (· != '\n') rest := by
  generalize classified : classify dialect depth first rest = lexed at isComment ⊢
  cases classifies_iff.mpr classified with
  | lineComment isLess outside => exact ⟨isLess, outside, rfl, rfl, rfl⟩
  | _ => exact absurd isComment nofun

/-- A line comment ends before a line feed or at the end. -/
theorem Classifies.ends_of_lineComment
    {dialect : Dialect}
    {depth count : Nat}
    {first : Char}
    {rest : Text}
    (found : Classifies dialect depth first rest (.lineComment, count)) :
    '\n' ∉ first :: rest.take count ∧ ∀ c ∈ (rest.drop count).head?, c = '\n' := by
  cases found with | lineComment =>
  constructor
  · intro present
    rcases List.mem_cons.mp present with slash | inside
    · exact absurd slash (by decide)
    · exact absurd (test_of_mem_take_countWhile inside) (by decide)
  · intro c isFirst
    simpa using test_of_head?_drop_countWhile c isFirst

end Lexer
end StyleTypings
