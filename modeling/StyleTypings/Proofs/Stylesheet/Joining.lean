import StyleTypings.Proofs.Stylesheet.Reach

/-!
# Cutting and joining lexed texts

A text cut between two lexemes is lexed into the lexemes on each side. Two texts put
together are lexed into the lexemes of both if nothing in the second continues the
last lexeme of the first, except that whitespace on both sides of the seam becomes
one lexeme.
-/

namespace StyleTypings
namespace Lexer

theorem lexemes_css (depth : Nat) (text : Text) :
    lexemes .css depth text = lexemes .css 0 text := by
  induction length : text.length using Nat.strongRecOn generalizing depth text with
  | _ size inductionHypothesis =>
  subst length
  cases text with
  | nil => rw [lexemes, lexemes]
  | cons first rest =>
      have shorter :
          (rest.drop (classify .css 0 first rest).2).length < (first :: rest).length := by
        rw [List.length_drop, List.length_cons]
        omega
      rw [lexemes, lexemes, classify_css depth, inductionHypothesis _ shorter _ _ rfl,
        inductionHypothesis _ shorter (TokenKind.depthAfter _ 0) _ rfl]

/-- The first lexeme of a text, and those behind it. -/
theorem lexemes_cons (first : Char) (rest : Text) :
    lexemes .css 0 (first :: rest) =
      ⟨(classify .css 0 first rest).1, first :: rest.take (classify .css 0 first rest).2⟩ ::
        lexemes .css 0 (rest.drop (classify .css 0 first rest).2) := by
  rw [lexemes, lexemes_css]

/-- A text that is cut between two lexemes is lexed into those on each side. -/
theorem lexemes_of_eq_append
    {text : Text}
    {front back : List Lexeme}
    (split : lexemes .css 0 text = front ++ back) :
    lexemes .css 0 (front.flatMap Lexeme.text) = front ∧
      lexemes .css 0 (back.flatMap Lexeme.text) = back := by
  induction front generalizing text with
  | nil =>
      rw [List.nil_append] at split
      rw [← split, flatMap_text_lexemes]
      exact ⟨by rw [List.flatMap_nil, lexemes], rfl⟩
  | cons lexeme rest inductionHypothesis =>
      cases text with
      | nil =>
          rw [lexemes] at split
          exact absurd split (List.cons_ne_nil lexeme (rest ++ back)).symm
      | cons c others =>
          rw [lexemes_cons, List.cons_append] at split
          obtain ⟨rfl, later⟩ := List.cons.inj split
          obtain ⟨front, behind⟩ := inductionHypothesis later
          refine ⟨?_, behind⟩
          let count := (classify .css 0 c others).2
          let after := rest.flatMap Lexeme.text
          have behindFirst : others.drop count = after ++ back.flatMap Lexeme.text := by
            rw [← flatMap_text_lexemes .css 0 (others.drop count), later, List.flatMap_append]
          have cut : others.take count ++ after = others.take (count + after.length) := by
            rw [List.take_add, behindFirst, List.take_left]
          have same : classify .css 0 c (others.take (count + after.length)) =
              classify .css 0 c others :=
            classify_take (Nat.le_add_right count after.length)
          have left : (others.take (count + after.length)).drop count = after := by
            rw [List.drop_take, behindFirst, Nat.add_sub_cancel_left, List.take_left]
          have taken : (others.take (count + after.length)).take count = others.take count := by
            rw [List.take_take, Nat.min_eq_left (Nat.le_add_right count after.length)]
          rw [List.flatMap_cons, List.cons_append, cut, lexemes_cons, same, left, taken, front]

/-- The lexemes of two texts put together: those of both, but whitespace on both
sides of the seam becomes one. -/
inductive Joins : List Lexeme → List Lexeme → List Lexeme → Prop
  | apart (front back : List Lexeme) : Joins front back (front ++ back)
  | merged (front back : List Lexeme) (left right : Text) :
      Joins (front ++ [⟨.whitespace, left⟩]) (⟨.whitespace, right⟩ :: back)
        (front ++ ⟨.whitespace, left ++ right⟩ :: back)

theorem Joins.cons
    {front back whole : List Lexeme}
    (joins : Joins front back whole)
    (lexeme : Lexeme) :
    Joins (lexeme :: front) back (lexeme :: whole) := by
  cases joins with
  | apart => exact .apart (lexeme :: front) back
  | merged front back left right => exact .merged (lexeme :: front) back left right

/-- Whitespace joins what follows, or takes in its whitespace. -/
theorem joins_lexemes_of_whitespace
    {first : Char}
    {rest : Text}
    (isSpace : (classify .css 0 first rest).1 = .whitespace)
    (whole : (classify .css 0 first rest).2 = rest.length)
    (back : Text) :
    Joins [⟨.whitespace, first :: rest⟩] (lexemes .css 0 back)
      (lexemes .css 0 (first :: (rest ++ back))) := by
  rw [lexemes_cons, classify_append_of_whitespace isSpace whole, List.take_length_add_append,
    List.drop_length_add_append]
  cases back with
  | nil =>
      rw [List.take_nil, List.drop_nil, List.append_nil, lexemes]
      exact .apart [_] []
  | cons second others =>
      cases space : Lexer.isSpace second with
      | false =>
          have nothing : countWhile Lexer.isSpace (second :: others) = 0 :=
            countWhile_of_head? fun c isFirst => Option.some.inj isFirst ▸ space
          rw [nothing, List.take_zero, List.drop_zero, List.append_nil]
          exact .apart [_] _
      | true =>
          have more : countWhile Lexer.isSpace (second :: others) =
              countWhile Lexer.isSpace others + 1 := by
            unfold countWhile
            rw [List.takeWhile_cons, if_pos space, List.length_cons]
          rw [more, List.take_succ_cons, List.drop_succ_cons, lexemes_cons second,
            classify_of_isSpace space]
          exact .merged [] _ (first :: rest) _

/-- Texts are lexed together as they are apart if nothing continues the last lexeme
of the first. -/
theorem joins_lexemes
    {front back : Text}
    (parts : ∀ last ∈ (lexemes .css 0 front).getLast?,
      last.kind = .whitespace ∨ Parts last.kind back) :
    Joins (lexemes .css 0 front) (lexemes .css 0 back) (lexemes .css 0 (front ++ back)) := by
  -- On the length of the first text: its first lexeme ends inside it or at the seam.
  induction length : front.length using Nat.strongRecOn generalizing front with
  | _ size inductionHypothesis =>
  subst length
  cases front with
  | nil =>
      rw [lexemes, List.nil_append]
      exact .apart [] _
  | cons first rest =>
      let lexed := classify .css 0 first rest
      rw [lexemes_cons] at parts ⊢
      rw [List.cons_append, lexemes_cons first (rest ++ back)]
      rcases Nat.lt_or_eq_of_le (classify_le .css 0 first rest) with inside | whole
      · have same : classify .css 0 first (rest ++ back) = lexed := classify_append (.inl inside)
        rw [same, List.take_append_of_le_length (Nat.le_of_lt inside),
          List.drop_append_of_le_length (Nat.le_of_lt inside)]
        refine .cons (inductionHypothesis _ ?_ ?_ rfl) _
        · rw [List.length_drop, List.length_cons]
          omega
        · intro last isLast
          refine parts last ?_
          rw [List.getLast?_cons, isLast]
          rfl
      · have noRest : rest.drop lexed.2 = [] := by
          rw [whole, List.drop_length]
        have all : rest.take lexed.2 = rest := by
          rw [whole, List.take_length]
        have lastParts := parts ⟨lexed.1, first :: rest⟩ (by
          rw [noRest, all, lexemes]
          rfl)
        rw [noRest, all, lexemes]
        rcases lastParts with isSpace | apart
        · have kind : (classify .css 0 first rest).1 = .whitespace := isSpace
          rw [kind, ← lexemes_cons first (rest ++ back)]
          exact joins_lexemes_of_whitespace kind whole back
        · have same : classify .css 0 first (rest ++ back) = lexed := classify_append (.inr apart)
          rw [same, whole, List.take_left, List.drop_left]
          exact .apart [_] _

/-- Of the lexemes that end, only whitespace ends with a line feed. -/
theorem whitespace_of_getLast?
    {depth : Nat}
    {text : Text} :
    ∀ lexeme ∈ lexemes .css depth text, lexeme.kind ≠ .invalid →
      lexeme.text.getLast? = some '\n' → lexeme.kind = .whitespace := by
  refine forall_mem_lexemes fun found valid ends => ?_
  cases found with
  | whitespace => rfl
  | openComment | openString => exact absurd rfl valid
  | lineComment isLess => exact absurd isLess nofun
  | comment found =>
      rw [List.take_succ_cons, List.getLast?_cons_cons, List.getLast?_cons,
        getLast?_take_commentEnd? found] at ends
      exact absurd ends (by decide)
  | closedString isQuote closed =>
      rw [List.getLast?_cons, getLast?_take_stringEnd closed] at ends
      obtain rfl := Option.some.inj ends
      exact absurd isQuote (by decide)
  | atKeyword =>
      rcases List.mem_cons.mp (List.mem_of_getLast? ends) with isFirst | later
      · exact absurd isFirst (by decide)
      · exact absurd (test_of_mem_take_countWhile later) (by decide)
  | text plain =>
      rcases List.mem_cons.mp (List.mem_of_getLast? ends) with rfl | later
      · exact absurd plain (by decide)
      · exact absurd (test_of_mem_take_countWhile later) (by decide)
  | _ => simp at ends

/-! ## Ends of texts -/

/-- Nothing that follows can be part of a token of a kind, unless that is whitespace. -/
def Settled (kind : TokenKind) : Prop :=
  kind = .whitespace ∨ kind.isClosed = true

/-- Nothing that follows a text can be part of its last lexeme, unless that is
whitespace. -/
def EndsApart (text : Text) : Prop :=
  ∀ last ∈ (lexemes .css 0 text).getLast?, Settled last.kind

/-- What texts put together end with is what the second ends with, or the first if
there is no second. -/
theorem Joins.last
    {front back whole : List Lexeme}
    (joins : Joins front back whole)
    (behind : ∀ last ∈ back.getLast?, Settled last.kind)
    (before : back = [] → ∀ last ∈ front.getLast?, Settled last.kind) :
    ∀ last ∈ whole.getLast?, Settled last.kind := by
  intro last isLast
  cases joins with
  | apart =>
      rw [List.getLast?_append] at isLast
      cases found : back.getLast? with
      | none =>
          rw [found] at isLast
          exact before (List.getLast?_eq_none_iff.mp found) last isLast
      | some lexeme =>
          rw [found] at isLast
          obtain rfl := Option.some.inj isLast
          exact behind lexeme found
  | merged front back left right =>
      rw [List.getLast?_append, List.getLast?_cons] at isLast
      rw [List.getLast?_cons] at behind
      have ends := behind _ rfl
      obtain rfl := Option.some.inj isLast
      cases found : back.getLast? with
      | none =>
          rw [found] at ends
          exact ends
      | some lexeme =>
          rw [found] at ends
          exact ends

theorem EndsApart.joins
    {front : Text}
    (apart : EndsApart front)
    (back : Text) :
    Joins (lexemes .css 0 front) (lexemes .css 0 back) (lexemes .css 0 (front ++ back)) :=
  joins_lexemes fun last isLast => (apart last isLast).imp_right .inl

theorem EndsApart.append
    {front back : Text}
    (first : EndsApart front)
    (second : EndsApart back) :
    EndsApart (front ++ back) :=
  (first.joins back).last second fun _ => first

theorem endsApart_nil : EndsApart [] := by
  unfold EndsApart
  rw [lexemes, List.getLast?_nil]
  exact fun last isLast => absurd isLast (Option.not_mem_none last)

theorem lexemes_lineFeed : lexemes .css 0 ['\n'] = [⟨.whitespace, ['\n']⟩] := by
  rw [lexemes_cons, classify_of_isSpace rfl, List.take_nil, List.drop_nil, lexemes]

/-- A line feed joins every text whose lexemes end. -/
theorem joins_lineFeed
    {text : Text}
    (valid : ∀ lexeme ∈ lexemes .css 0 text, lexeme.kind ≠ .invalid) :
    Joins (lexemes .css 0 text) (lexemes .css 0 ['\n']) (lexemes .css 0 (text ++ ['\n'])) := by
  refine joins_lexemes fun last isLast => ?_
  by_cases space : last.kind = .whitespace
  · exact .inl space
  · refine .inr (.inr ⟨space, valid last (List.mem_of_getLast? isLast), ?_⟩)
    rintro c ⟨⟩
    rfl

/-- A text with a line feed behind it ends apart if its lexemes end. -/
theorem endsApart_append_lineFeed
    {text : Text}
    (valid : ∀ lexeme ∈ lexemes .css 0 text, lexeme.kind ≠ .invalid) :
    EndsApart (text ++ ['\n']) := by
  refine (joins_lineFeed valid).last ?_ ?_
  · rw [lexemes_lineFeed]
    rintro last ⟨⟩
    exact .inl rfl
  · rw [lexemes_lineFeed]
    exact nofun

/-- A text that ends with a line feed ends apart if its lexemes end. -/
theorem endsApart_of_getLast?
    {text : Text}
    (valid : ∀ lexeme ∈ lexemes .css 0 text, lexeme.kind ≠ .invalid)
    (feed : text.getLast? = some '\n') :
    EndsApart text := by
  intro last isLast
  have present := List.mem_of_getLast? isLast
  obtain ⟨init, split⟩ := List.getLast?_eq_some_iff.mp isLast
  obtain ⟨first, rest, covered, -⟩ := covers_of_mem_lexemes last present
  have whole := flatMap_text_lexemes .css 0 text
  rw [split, List.flatMap_append, List.flatMap_singleton] at whole
  refine .inl (whitespace_of_getLast? last present (valid last present) ?_)
  rw [← whole, List.getLast?_append, covered, List.getLast?_cons] at feed
  rw [covered, List.getLast?_cons]
  exact feed

end Lexer

/-! ## Tokens of a text of their own -/

namespace Parser

open Lexer

/-- Tokens that their text is lexed into. -/
def Lexed (tokens : List Token) : Prop :=
  lexemes .css 0 (Token.join tokens) = tokens.map Token.lexeme

theorem lexed_tokens (source : Text) : Lexed (tokens .css source) := by
  unfold Lexed tokens
  rw [Lexeme.join_place, flatMap_text_lexemes, Lexeme.map_lexeme_place]

theorem Lexed.parts
    {front back : List Token}
    (lexed : Lexed (front ++ back)) :
    Lexed front ∧ Lexed back := by
  unfold Lexed at lexed ⊢
  rw [List.map_append] at lexed
  have cut := lexemes_of_eq_append lexed
  rwa [Token.flatMap_text_map_lexeme, Token.flatMap_text_map_lexeme] at cut

theorem Lexed.tail
    {token : Token}
    {rest : List Token}
    (lexed : Lexed (token :: rest)) :
    Lexed rest :=
  (@Lexed.parts [token] rest lexed).2

end Parser
end StyleTypings
