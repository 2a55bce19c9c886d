import StyleTypings.Proofs.Compile.Cleaning
import StyleTypings.Proofs.Stylesheet.Blanking

/-!
# Lexing a text without its line comments

A text with spaces for its line comments has no line comments any more, so it is lexed
alike as CSS and as LESS: into the tokens of the text with its comments, where each run of
whitespace and line comments has become one whitespace.
-/

namespace StyleTypings

open Lexer SourceUnit

/-- The kinds of token that are spaces once line comments are blanked out. -/
def TokenKind.isBlanked : TokenKind → Bool
  | .whitespace | .lineComment => true
  | _ => false

theorem TokenKind.isBlanked_iff {kind : TokenKind} :
    kind.isBlanked = true ↔ kind = .whitespace ∨ kind = .lineComment := by
  cases kind <;> simp [isBlanked]

theorem TokenKind.not_isBlanked_iff {kind : TokenKind} :
    kind.isBlanked = false ↔ kind ≠ .whitespace ∧ kind ≠ .lineComment := by
  rw [← Bool.not_eq_true, isBlanked_iff, not_or]

namespace Token

/-- The text of a token once line comments are blanked out. -/
def blanked (token : Token) : Text :=
  blankLexeme token.lexeme

/-- Tokens in which each longest run of whitespace and line comments has become one
whitespace. -/
def fuse : List Token → List Token
  | [] => []
  | token :: rest =>
      if token.kind.isBlanked then
        ⟨.whitespace, (token :: rest.takeWhile (·.kind.isBlanked)).flatMap blanked,
            token.start⟩ ::
          fuse (rest.dropWhile (·.kind.isBlanked))
      else
        token :: fuse rest
  termination_by tokens => tokens.length
  decreasing_by
    · exact Nat.lt_succ_of_le (List.dropWhile_sublist _).length_le
    · exact Nat.lt_succ_self _

/-- Puts a token that is blanked in front of others, where it takes in whitespace. -/
def spread (token : Token) : List Token → List Token
  | [] => [⟨.whitespace, token.blanked, token.start⟩]
  | next :: rest =>
      if next.kind = .whitespace then
        ⟨.whitespace, token.blanked ++ next.text, token.start⟩ :: rest
      else
        ⟨.whitespace, token.blanked, token.start⟩ :: next :: rest

@[simp] theorem fuse_nil : fuse [] = [] := by
  rw [fuse]

theorem fuse_cons_of_not
    {token : Token}
    (solid : token.kind.isBlanked = false)
    (rest : List Token) :
    fuse (token :: rest) = token :: fuse rest := by
  rw [fuse, solid]
  rfl

theorem fuse_cons
    {token : Token}
    (isBlanked : token.kind.isBlanked = true)
    (rest : List Token) :
    fuse (token :: rest) = token.spread (fuse rest) := by
  rw [fuse, if_pos isBlanked]
  cases rest with
  | nil => simp [spread]
  | cons next others =>
      cases blankedToo : next.kind.isBlanked with
      | true =>
          rw [fuse, if_pos blankedToo, spread, if_pos rfl]
          simp [blankedToo]
      | false =>
          have solid := (TokenKind.not_isBlanked_iff.mp blankedToo).1
          rw [fuse_cons_of_not blankedToo, spread, if_neg solid]
          simp [blankedToo, fuse_cons_of_not blankedToo]

end Token

namespace Lexer

/-! ## What ends in front of a line comment -/

/-- A text begins as another does, or with a space where the other has a comment, so two
slashes stand where they do in the other. -/
theorem Fronts.head?_ne_slash
    {text more other : Text}
    (fronts : Fronts more other)
    (single : (text ++ more).head? ≠ some '/') :
    (text ++ other).head? ≠ some '/' := by
  cases text with
  | nil =>
      rcases fronts with same | ⟨-, isSpace⟩
      · exact same ▸ single
      · exact isSpace ▸ by decide
  | cons c rest => exact single

/-- A lexeme that is not blanked and ends at a seam is the same in both dialects if
something else is behind the seam. -/
theorem Fronts.classify_less_eq
    {text more other : Text}
    (fronts : Fronts more other)
    {depth : Nat}
    {first : Char}
    (whole : (classify .less depth first (text ++ more)).2 = text.length)
    (solid : (classify .less depth first (text ++ more)).1.isBlanked = false)
    (dialect : Dialect) :
    classify dialect depth first (text ++ other) =
      classify .less depth first (text ++ more) := by
  obtain ⟨noSpace, noComment⟩ := TokenKind.not_isBlanked_iff.mp solid
  have noCommentToo : (classify dialect depth first (text ++ other)).1 ≠ .lineComment := by
    intro isComment
    obtain ⟨rfl, rfl, rfl, isSlash, -⟩ := classify_lineComment isComment
    have single : (text ++ more).head? ≠ some '/' := by
      intro second
      obtain ⟨body, split⟩ := List.head?_eq_some_iff.mp second
      rw [split] at noComment
      exact noComment rfl
    exact fronts.head?_ne_slash single isSlash
  rw [classify_eq_css noComment] at whole noSpace ⊢
  rw [classify_eq_css noCommentToo]
  cases isTrivia : (classify .css 0 first (text ++ more)).1.isTrivia with
  | false => exact fronts.classify_eq whole isTrivia
  | true =>
      have isComment := (isGap_of_classify isTrivia).resolve_left noSpace
      have alone : classify .css 0 first text = classify .css 0 first (text ++ more) := by
        have taken := classify_take (Nat.le_of_eq whole)
        rwa [List.take_left] at taken
      rw [classify_append (.inr (.inl (by rw [alone, isComment]; rfl))), alone]

/-! ## Whole texts -/

/-- The text behind a place, where parentheses are nested, without its line comments. -/
def blankFrom (depth : Nat) (text : Text) : Text :=
  (lexemes .less depth text).flatMap blankLexeme

theorem blankFrom_cons (depth : Nat) (first : Char) (rest : Text) :
    blankFrom depth (first :: rest) =
      blankLexeme ⟨(classify .less depth first rest).1,
          first :: rest.take (classify .less depth first rest).2⟩ ++
        blankFrom ((classify .less depth first rest).1.depthAfter depth)
          (rest.drop (classify .less depth first rest).2) := by
  unfold blankFrom
  rw [lexemes, List.flatMap_cons]

/-- A line comment becomes spaces, one at least. -/
theorem exists_blankLexeme_eq
    {lexeme : Lexeme}
    (isComment : lexeme.kind = .lineComment)
    (nonempty : lexeme.text ≠ []) :
    ∃ count, blankLexeme lexeme = ' ' :: List.replicate count ' ' := by
  have positive : lexeme.text.byteSize ≠ 0 := mt Text.byteSize_eq_zero.mp nonempty
  obtain ⟨count, isCount⟩ := Nat.exists_eq_succ_of_ne_zero positive
  refine ⟨count, ?_⟩
  unfold blankLexeme
  rw [if_pos isComment, isCount, List.replicate_succ]

/-- What is blanked becomes spaces, one at least. -/
theorem exists_spaces_of_isBlanked
    {depth : Nat}
    {first : Char}
    {rest : Text}
    (isBlanked : (classify .less depth first rest).1.isBlanked = true) :
    ∃ space spaces, blankLexeme ⟨(classify .less depth first rest).1,
        first :: rest.take (classify .less depth first rest).2⟩ = space :: spaces ∧
      ∀ c ∈ space :: spaces, isSpace c = true := by
  by_cases isComment : (classify .less depth first rest).1 = .lineComment
  · obtain ⟨count, blank⟩ := @exists_blankLexeme_eq
      ⟨(classify .less depth first rest).1, first :: rest.take _⟩ isComment
      (List.cons_ne_nil first _)
    refine ⟨' ', List.replicate count ' ', blank, fun c present => ?_⟩
    rw [← List.replicate_succ] at present
    exact List.eq_of_mem_replicate present ▸ rfl
  · have isWhitespace := (TokenKind.isBlanked_iff.mp isBlanked).resolve_right isComment
    have space : isSpace first = true := by
      rw [classify_eq_css isComment] at isWhitespace
      exact isSpace_of_classify isWhitespace
    refine ⟨first, _, if_neg isComment, fun c present => ?_⟩
    rcases List.mem_cons.mp present with rfl | later
    · exact space
    · rw [classify_of_isSpace space] at later
      exact test_of_mem_take_countWhile later

/-- Without its line comments a text begins as it does with them, or with a space in place
of a comment. -/
theorem fronts_blankFrom (depth : Nat) (text : Text) : Fronts text (blankFrom depth text) := by
  cases text with
  | nil =>
      unfold blankFrom
      rw [lexemes]
      exact .inl rfl
  | cons first rest =>
      rw [blankFrom_cons]
      by_cases isComment : (classify .less depth first rest).1 = .lineComment
      · obtain ⟨-, -, rfl, -⟩ := classify_lineComment isComment
        obtain ⟨count, blank⟩ := @exists_blankLexeme_eq
          ⟨(classify .less depth '/' rest).1, '/' :: rest.take _⟩ isComment
          (List.cons_ne_nil '/' _)
        rw [blank]
        exact .inr ⟨rfl, rfl⟩
      · have kept : blankLexeme ⟨(classify .less depth first rest).1,
            first :: rest.take (classify .less depth first rest).2⟩ =
            first :: rest.take (classify .less depth first rest).2 := if_neg isComment
        rw [kept]
        exact .inl rfl

/-- Only spaces begin whitespace, in both dialects. -/
theorem classify_ne_whitespace
    {first : Char}
    (solid : isSpace first = false)
    (dialect : Dialect)
    (depth : Nat)
    (rest : Text) :
    (classify dialect depth first rest).1 ≠ .whitespace := by
  intro isWhitespace
  have noComment : (classify dialect depth first rest).1 ≠ .lineComment := by
    rw [isWhitespace]
    decide
  rw [classify_eq_css noComment] at isWhitespace
  rw [isSpace_of_classify isWhitespace] at solid
  exact Bool.noConfusion solid

theorem place_lexemes_cons
    (dialect : Dialect)
    (depth offset : Nat)
    (first : Char)
    (rest : Text) :
    Lexeme.place offset (lexemes dialect depth (first :: rest)) =
      ⟨(classify dialect depth first rest).1,
          first :: rest.take (classify dialect depth first rest).2, offset⟩ ::
        Lexeme.place
          (offset + Text.byteSize (first :: rest.take (classify dialect depth first rest).2))
          (lexemes dialect ((classify dialect depth first rest).1.depthAfter depth)
            (rest.drop (classify dialect depth first rest).2)) := by
  rw [lexemes]
  rfl

/-- Spaces for a token are one whitespace, which takes in the spaces behind them. -/
theorem place_lexemes_spaces
    {token : Token}
    {space : Char}
    {spaces : Text}
    (isText : token.blanked = space :: spaces)
    (areSpaces : ∀ c ∈ space :: spaces, isSpace c = true)
    (dialect : Dialect)
    (depth : Nat)
    (more : Text) :
    Lexeme.place token.start (lexemes dialect depth (token.blanked ++ more)) =
      token.spread (Lexeme.place (token.start + token.blanked.byteSize)
        (lexemes dialect depth more)) := by
  have all : countWhile isSpace spaces = spaces.length :=
    countWhile_of_forall fun c present => areSpaces c (List.mem_cons_of_mem space present)
  have first := classify_of_isSpace (areSpaces space List.mem_cons_self)
  have level : TokenKind.whitespace.depthAfter depth = depth := rfl
  rw [isText, List.cons_append, place_lexemes_cons, first, countWhile_append_of_eq all,
    List.take_length_add_append, List.drop_length_add_append, level]
  cases more with
  | nil => simp [lexemes, Lexeme.place, Token.spread, isText]
  | cons next others =>
      cases isNext : isSpace next with
      | true =>
          have longer : countWhile isSpace (next :: others) = countWhile isSpace others + 1 := by
            unfold countWhile
            rw [List.takeWhile_cons, if_pos isNext, List.length_cons]
          rw [longer, List.take_succ_cons, List.drop_succ_cons, place_lexemes_cons,
            classify_of_isSpace isNext, Token.spread, if_pos rfl, isText, ← List.cons_append,
            Text.byteSize_append, level, Nat.add_assoc]
      | false =>
          have nothing : countWhile isSpace (next :: others) = 0 :=
            countWhile_of_head? fun c isFirst => Option.some.inj isFirst ▸ isNext
          have solid := classify_ne_whitespace isNext dialect depth others
          rw [nothing, List.take_zero, List.drop_zero, List.append_nil, place_lexemes_cons,
            Token.spread, if_neg solid, isText]

/-- What is blanked leaves the nesting of parentheses as it is. -/
theorem depthAfter_of_isBlanked
    {kind : TokenKind}
    (isBlanked : kind.isBlanked = true)
    (depth : Nat) :
    kind.depthAfter depth = depth := by
  rcases TokenKind.isBlanked_iff.mp isBlanked with rfl | rfl
  · rfl
  · rfl

/-- In either dialect a text without its line comments has the tokens of the text, fused. -/
theorem place_lexemes_blankFrom (dialect : Dialect) (depth offset : Nat) (text : Text) :
    Lexeme.place offset (lexemes dialect depth (blankFrom depth text)) =
      Token.fuse (Lexeme.place offset (lexemes .less depth text)) := by
  -- On the length of the text: its first lexeme is blanked or the same, others are behind it.
  induction length : text.length using Nat.strongRecOn generalizing text depth offset with
  | _ size inductionHypothesis =>
  subst length
  cases text with
  | nil => simp [blankFrom, lexemes, Lexeme.place]
  | cons first rest =>
      let lexed := classify .less depth first rest
      have later := inductionHypothesis (rest.drop lexed.2).length
        (by rw [List.length_drop, List.length_cons]; omega) (lexed.1.depthAfter depth)
        (offset + Text.byteSize (first :: rest.take lexed.2)) (rest.drop lexed.2) rfl
      let token : Token := ⟨lexed.1, first :: rest.take lexed.2, offset⟩
      rw [blankFrom_cons, place_lexemes_cons .less]
      cases isBlanked : lexed.1.isBlanked with
      | true =>
          obtain ⟨space, spaces, isText, areSpaces⟩ := exists_spaces_of_isBlanked isBlanked
          have spread := @place_lexemes_spaces token _ _ isText areSpaces dialect depth
            (blankFrom (lexed.1.depthAfter depth) (rest.drop lexed.2))
          have size : token.blanked.byteSize = token.text.byteSize := byteSize_blankLexeme _
          rw [Token.fuse_cons isBlanked, ← later, depthAfter_of_isBlanked isBlanked]
          rw [size, depthAfter_of_isBlanked isBlanked] at spread
          exact spread
      | false =>
          have noComment := (TokenKind.not_isBlanked_iff.mp isBlanked).2
          have kept : blankLexeme ⟨lexed.1, first :: rest.take lexed.2⟩ =
              first :: rest.take lexed.2 := if_neg noComment
          have inside := classify_le .less depth first rest
          have whole := List.take_append_drop lexed.2 rest
          have same := (fronts_blankFrom (lexed.1.depthAfter depth)
            (rest.drop lexed.2)).classify_less_eq
              (by rw [whole, List.length_take_of_le inside])
              (by rw [whole]; exact isBlanked) dialect
          rw [whole] at same
          have taken := List.length_take_of_le inside
          rw [kept, List.cons_append, place_lexemes_cons, same, List.take_left' taken,
            List.drop_left' taken, Token.fuse_cons_of_not isBlanked, ← later]

end Lexer
end StyleTypings
