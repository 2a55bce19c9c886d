import Mathlib.Data.List.Basic
import StyleTypings.Proofs.Compile.Fusing
import StyleTypings.Proofs.Stylesheet.Tiling

/-!
# A text and the text without its line comments

Blanking out the line comments of a LESS text puts a space for each of their bytes and
leaves everything else where it is: the bytes of the other tokens, the line feeds, and so
the line and byte column of every offset. A comment of wider characters takes up more
columns than before, but it reaches to the end of its line, so outside comments the UTF-16
columns are the same as well.
-/

namespace StyleTypings

open Lexer

namespace Token

theorem fuse_concat
    (tokens : List Token)
    {last : Token}
    (solid : last.kind.isBlanked = false) :
    fuse (tokens ++ [last]) = fuse tokens ++ [last] := by
  have noSpace := (TokenKind.not_isBlanked_iff.mp solid).1
  have spread_concat (token : Token) (rest : List Token) :
      token.spread (rest ++ [last]) = token.spread rest ++ [last] := by
    cases rest with
    | nil => exact if_neg noSpace
    | cons next others =>
        rw [List.cons_append, spread, spread]
        split <;> rfl
  induction tokens with
  | nil => rw [List.nil_append, fuse_cons_of_not solid, fuse_nil, List.nil_append]
  | cons token rest inductionHypothesis =>
      rw [List.cons_append]
      cases isBlanked : token.kind.isBlanked with
      | true => rw [fuse_cons isBlanked, fuse_cons isBlanked, inductionHypothesis, spread_concat]
      | false =>
          rw [fuse_cons_of_not isBlanked, fuse_cons_of_not isBlanked, inductionHypothesis,
            List.cons_append]

end Token

/-- A text has a line feed at an offset. -/
def Text.LineFeedAt (text : Text) (offset : Nat) : Prop :=
  ∃ front back : Text, text = front ++ '\n' :: back ∧ front.byteSize = offset

/-- Behind a line feed a line starts. -/
theorem Text.lineFeedAt_iff {text : Text} {offset : Nat} :
    text.LineFeedAt offset ↔ offset + 1 ∈ LineIndex.startsAfter 0 text := by
  rw [LineIndex.mem_startsAfter_iff]
  simp only [Nat.zero_add, Nat.add_right_cancel_iff, @eq_comm _ offset]
  rfl

namespace SourceUnit

theorem byteSize_blankLineComments (source : Text) :
    (blankLineComments source).byteSize = source.byteSize := by
  rw [blankLineComments, byteSize_flatMap_blankLexeme, flatMap_text_lexemes]

/-- In either dialect the blanked text has the tokens of the text, fused. -/
theorem allTokens_blankLineComments (dialect : Dialect) (source : Text) :
    allTokens dialect (blankLineComments source) = Token.fuse (allTokens .less source) := by
  have isEnd : endToken (blankLineComments source) = endToken source := by
    unfold endToken
    rw [byteSize_blankLineComments]
  unfold allTokens
  rw [Token.fuse_concat (tokens .less source) rfl, isEnd]
  exact congrArg (· ++ _) (place_lexemes_blankFrom dialect 0 0 source)

/-- There is no line comment left to be blanked. -/
theorem blankLineComments_blankLineComments (source : Text) :
    blankLineComments (blankLineComments source) = blankLineComments source := by
  let blanked := blankLineComments source
  have same : lexemes .less 0 blanked = lexemes .css 0 blanked := by
    rw [← Lexeme.map_lexeme_place 0 (lexemes .less 0 blanked),
      ← Lexeme.map_lexeme_place 0 (lexemes .css 0 blanked)]
    exact congrArg (List.map Token.lexeme) ((place_lexemes_blankFrom .less 0 0 source).trans
      (place_lexemes_blankFrom .css 0 0 source).symm)
  have kept : ∀ lexeme ∈ lexemes .css 0 blanked, blankLexeme lexeme = lexeme.text :=
    fun lexeme present => if_neg (kind_ne_lineComment_of_mem_lexemes lexeme present)
  change (lexemes .less 0 blanked).flatMap blankLexeme = blanked
  rw [same, List.flatMap_congr kept, flatMap_text_lexemes]

/-! ## Lines and columns -/

theorem lineFeed_notMem_of_mem_lexemes
    {dialect : Dialect}
    {depth : Nat}
    {text : Text} :
    ∀ lexeme ∈ lexemes dialect depth text, lexeme.kind = .lineComment → '\n' ∉ lexeme.text := by
  refine forall_mem_lexemes fun {_ _ _ kind _} found isComment => ?_
  obtain rfl : kind = .lineComment := isComment
  exact found.ends_of_lineComment.1

namespace KeepsLines

variable {write other : Lexeme → Text}

theorem startsAfter_flatMap
    (keeps : KeepsLines write)
    {lexemes : List Lexeme}
    (oneLine : ∀ lexeme ∈ lexemes, lexeme.kind = .lineComment → '\n' ∉ lexeme.text)
    (offset : Nat) :
    LineIndex.startsAfter offset (lexemes.flatMap write) =
      LineIndex.startsAfter offset (lexemes.flatMap Lexeme.text) := by
  induction lexemes generalizing offset with
  | nil => rfl
  | cons lexeme rest inductionHypothesis =>
      obtain ⟨first, later⟩ := List.forall_mem_cons.mp oneLine
      rw [List.flatMap_cons, List.flatMap_cons, LineIndex.startsAfter_append,
        LineIndex.startsAfter_append, keeps.size, inductionHypothesis later]
      by_cases isComment : lexeme.kind = .lineComment
      · rw [LineIndex.startsAfter_of_notMem (first isComment),
          LineIndex.startsAfter_of_notMem (keeps.oneLine lexeme (first isComment))]
      · rw [keeps.kept lexeme isComment]

end KeepsLines

theorem ofText_blankLineComments (source : Text) :
    LineIndex.ofText (blankLineComments source) = LineIndex.ofText source := by
  have starts := keepsLines_blankLexeme.startsAfter_flatMap
    (@lineFeed_notMem_of_mem_lexemes .less 0 source) 0
  rw [flatMap_text_lexemes] at starts
  unfold LineIndex.ofText
  rw [byteSize_blankLineComments]
  exact congrArg (LineIndex.mk · _) (congrArg (0 :: ·) starts)

/-- An offset lies neither inside nor at the end of a line comment. -/
def OutsideComments (source : Text) (offset : Nat) : Prop :=
  ∀ token ∈ tokens .less source, token.kind = .lineComment →
    ¬(token.start < offset ∧ offset ≤ token.stop)

/-- Outside line comments two ways to write the lexemes of a text have the same places. -/
theorem KeepsLines.isPlace
    {write other : Lexeme → Text}
    (keeps : KeepsLines write)
    (keepsToo : KeepsLines other)
    {source : Text}
    {offset : Nat}
    (outside : OutsideComments source offset)
    {place : LineColumn}
    (isPlace : Text.IsPlace ((lexemes .less 0 source).flatMap write) offset place) :
    Text.IsPlace ((lexemes .less 0 source).flatMap other) offset place := by
  obtain ⟨front, back, split, rfl, rfl⟩ := isPlace
  rcases keeps.exists_level_or_within keepsToo 0 split with
    ⟨before, after, written, level⟩ | ⟨token, present, isComment, within, -⟩
  · exact ⟨before, after, written, level.size.symm, level.placeAfter_eq⟩
  · rw [Nat.zero_add] at within
    exact absurd within (outside token present isComment)

theorem lineColumnUtf16?_blankLineComments
    {source : Text}
    {offset : Nat}
    (outside : OutsideComments source offset) :
    (LineIndex.ofText (blankLineComments source)).lineColumnUtf16? (blankLineComments source)
        offset =
      (LineIndex.ofText source).lineColumnUtf16? source offset := by
  have isSource : (lexemes .less 0 source).flatMap Lexeme.text = source :=
    flatMap_text_lexemes .less 0 source
  refine Option.ext fun place => ⟨fun found => ?_, fun found => ?_⟩
  · have isPlace := keepsLines_blankLexeme.isPlace keepsLines_text outside
      (LineIndex.isPlace_of_lineColumnUtf16? found)
    rw [isSource] at isPlace
    exact LineIndex.lineColumnUtf16?_of_isPlace isPlace
  · have isPlace := LineIndex.isPlace_of_lineColumnUtf16? found
    rw [← isSource] at isPlace
    exact LineIndex.lineColumnUtf16?_of_isPlace
      (keepsLines_text.isPlace keepsLines_blankLexeme outside isPlace)

/-! ## The blanked text -/

/-- What a token covers becomes its blanked text. -/
theorem slice_blankLineComments
    {source : Text}
    {token : Token}
    (present : token ∈ tokens .less source) :
    token.span.slice (blankLineComments source) = token.blanked := by
  obtain ⟨before, after, split⟩ := List.append_of_mem present
  have cut : lexemes .less 0 source =
      before.map Token.lexeme ++ token.lexeme :: after.map Token.lexeme := by
    rw [← Lexeme.map_lexeme_place 0 (lexemes .less 0 source), ← List.map_cons, ← List.map_append]
    exact congrArg _ split
  have start : Text.byteSize ((before.map Token.lexeme).flatMap blankLexeme) =
      token.start := by
    rw [byteSize_flatMap_blankLexeme, Token.flatMap_text_map_lexeme,
      start_of_tokens_eq_append split]
  have size : token.blanked.byteSize = token.text.byteSize := byteSize_blankLexeme token.lexeme
  have slice := Span.slice_append ((before.map Token.lexeme).flatMap blankLexeme)
    token.blanked ((after.map Token.lexeme).flatMap blankLexeme)
  rw [start, size] at slice
  unfold blankLineComments
  rw [cut, List.flatMap_append, List.flatMap_cons]
  exact slice

/-- A text is another one without its line comments: as long, with its line feeds, with
spaces where the other has comments and the same elsewhere, with its tokens in CSS, and
with the same lines and columns. -/
structure Blanks (source blanked : Text) : Prop where
  size : blanked.byteSize = source.byteSize
  lineFeeds : ∀ offset, blanked.LineFeedAt offset ↔ source.LineFeedAt offset
  comments : ∀ token ∈ tokens .less source, token.kind = .lineComment →
    token.span.slice blanked = List.replicate (token.stop - token.start) ' '
  others : ∀ token ∈ tokens .less source, token.kind ≠ .lineComment →
    token.span.slice blanked = token.span.slice source
  lexed : allTokens .css blanked = Token.fuse (allTokens .less source)
  lineColumn : ∀ offset, (LineIndex.ofText blanked).lineColumn? offset =
    (LineIndex.ofText source).lineColumn? offset
  lineColumnUtf16 : ∀ offset, OutsideComments source offset →
    (LineIndex.ofText blanked).lineColumnUtf16? blanked offset =
      (LineIndex.ofText source).lineColumnUtf16? source offset

/-- The text of a LESS file as CSS is the file without its line comments, and stays as it
is if it is blanked again. -/
theorem blanks_cleanText
    {path : Path}
    (isLess : Dialect.ofExtension path.extension? = .less)
    (source : Text) :
    Blanks source (cleanText path source) ∧
      cleanText path (cleanText path source) = cleanText path source := by
  have isBlanked (text : Text) : cleanText path text = blankLineComments text := by
    simp only [cleanText, isLess]
  rw [isBlanked, isBlanked]
  refine ⟨⟨byteSize_blankLineComments source, fun offset => ?_, fun token present isComment => ?_,
    fun token present noComment => ?_, allTokens_blankLineComments .css source,
    fun offset => by rw [ofText_blankLineComments],
    fun offset => lineColumnUtf16?_blankLineComments⟩,
    blankLineComments_blankLineComments source⟩
  · have starts := congrArg LineIndex.starts (ofText_blankLineComments source)
    have same : LineIndex.startsAfter 0 (blankLineComments source) =
        LineIndex.startsAfter 0 source := (List.cons.inj starts).2
    rw [Text.lineFeedAt_iff, Text.lineFeedAt_iff, same]
  · have size : token.stop - token.start = token.text.byteSize := Nat.add_sub_cancel_left _ _
    rw [slice_blankLineComments present, size]
    exact if_pos isComment
  · rw [slice_blankLineComments present, (cut_of_mem_tokens present).2.2]
    exact if_neg noComment

/-- A LESS text with a comment of wide characters in front of a carriage return, slashes
that begin no comment, and a comment at its end. -/
def slashed : Text :=
  "a // é\r\n(//)/* // */'//' //"

theorem blanks_cleanText_slashed :
    Dialect.ofExtension (Path.extension? "a.LESS") = .less ∧
      Blanks slashed "a       \n(//)/* // */'//'   " := by
  have isLess : Dialect.ofExtension (Path.extension? "a.LESS") = .less := by decide +kernel
  have isBlanked : cleanText "a.LESS" slashed =
      "a       \n(//)/* // */'//'   ".toList := by decide +kernel
  exact ⟨isLess, isBlanked ▸ (blanks_cleanText isLess slashed).1⟩

end SourceUnit
end StyleTypings
