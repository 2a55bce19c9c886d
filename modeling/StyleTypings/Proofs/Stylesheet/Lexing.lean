import StyleTypings.Proofs.Text.Cutting
import StyleTypings.Stylesheet.Lexer

/-!
# What lexemes cover

The lexemes of a text put together the text again. Tokens stand one after the
other, so the bytes from the start of one to the end of a later one are the text
of all tokens between the two.

`Classifies` lists the ways in which a lexeme is found. What holds of each of them
holds of all lexemes of a text: none is empty, only whitespace begins with a space,
plain CSS has no line comments, and none is the end of the text.
-/

namespace StyleTypings

/-- A token without its place. -/
def Token.lexeme (token : Token) : Lexeme :=
  ⟨token.kind, token.text⟩

@[simp] theorem Lexeme.map_lexeme_place (offset : Nat) (lexemes : List Lexeme) :
    (place offset lexemes).map Token.lexeme = lexemes := by
  induction lexemes generalizing offset with
  | nil => rfl
  | cons lexeme rest inductionHypothesis =>
      rw [place, List.map_cons, inductionHypothesis]
      rfl

theorem Lexeme.mem_of_mem_place
    {offset : Nat}
    {lexemes : List Lexeme}
    {token : Token}
    (present : token ∈ place offset lexemes) :
    token.lexeme ∈ lexemes := by
  rw [← map_lexeme_place offset lexemes]
  exact List.mem_map_of_mem present

@[simp] theorem Token.join_append (front back : List Token) :
    join (front ++ back) = join front ++ join back :=
  List.flatMap_append

/-- The text of some tokens is that of their lexemes. -/
theorem Token.flatMap_text_map_lexeme (tokens : List Token) :
    (tokens.map lexeme).flatMap Lexeme.text = join tokens := by
  rw [List.flatMap_map]
  rfl

@[simp] theorem Lexeme.join_place (offset : Nat) (lexemes : List Lexeme) :
    Token.join (place offset lexemes) = lexemes.flatMap Lexeme.text := by
  induction lexemes generalizing offset with
  | nil => rfl
  | cons lexeme rest inductionHypothesis =>
      rw [List.flatMap_cons, ← inductionHypothesis (offset + lexeme.text.byteSize)]
      rfl

/-- Lexemes behind others are placed where these end. -/
theorem Lexeme.place_append (offset : Nat) (front back : List Lexeme) :
    place offset (front ++ back) =
      place offset front ++ place (offset + Text.byteSize (front.flatMap Lexeme.text)) back := by
  induction front generalizing offset with
  | nil => rfl
  | cons lexeme rest inductionHypothesis =>
      rw [List.cons_append, place, place, List.cons_append, inductionHypothesis,
        List.flatMap_cons, Text.byteSize_append, Nat.add_assoc]

/-- What is placed behind other tokens begins where they end. -/
theorem Lexeme.eq_place_of_place_eq_append
    {offset : Nat}
    {lexemes : List Lexeme}
    {front back : List Token}
    (split : place offset lexemes = front ++ back) :
    back = place (offset + (Token.join front).byteSize) (back.map Token.lexeme) := by
  induction front generalizing offset lexemes with
  | nil =>
      rw [List.nil_append] at split
      rw [← split, map_lexeme_place]
      rfl
  | cons token rest inductionHypothesis =>
      cases lexemes with
      | nil => exact absurd split nofun
      | cons lexeme others =>
          obtain ⟨rfl, later⟩ := List.cons.inj split
          have size : (Token.join (⟨lexeme.kind, lexeme.text, offset⟩ :: rest)).byteSize =
              lexeme.text.byteSize + (Token.join rest).byteSize :=
            Text.byteSize_append _ _
          rw [size, ← Nat.add_assoc]
          exact inductionHypothesis later

/-- The last of some tokens ends behind the text of all of them. -/
theorem Lexeme.stop_getLastD_of_place_eq_append
    {offset : Nat}
    {lexemes : List Lexeme}
    {first : Token}
    {rest after : List Token}
    (split : place offset lexemes = first :: (rest ++ after)) :
    (rest.getLastD first).stop = offset + (Token.join (first :: rest)).byteSize := by
  induction rest generalizing offset lexemes first with
  | nil =>
      cases lexemes with
      | nil => exact absurd split nofun
      | cons lexeme others =>
          obtain ⟨rfl, -⟩ := List.cons.inj split
          simp [Token.stop, Token.join]
  | cons second others inductionHypothesis =>
      cases lexemes with
      | nil => exact absurd split nofun
      | cons lexeme more =>
          obtain ⟨rfl, later⟩ := List.cons.inj split
          have stops := inductionHypothesis later
          have size : (Token.join
              (⟨lexeme.kind, lexeme.text, offset⟩ :: second :: others)).byteSize =
              lexeme.text.byteSize + (Token.join (second :: others)).byteSize :=
            Text.byteSize_append _ _
          rw [List.getLastD_cons, stops, size, Nat.add_assoc]

namespace Lexer

/-- Lexemes put together the text they were cut from. -/
theorem flatMap_text_lexemes (dialect : Dialect) (depth : Nat) (text : Text) :
    (lexemes dialect depth text).flatMap Lexeme.text = text := by
  fun_induction lexemes dialect depth text with
  | case1 => rfl
  | case2 depth first rest lexed inductionHypothesis =>
      rw [List.flatMap_cons, inductionHypothesis, List.cons_append, List.take_append_drop]

/-- Tokens put together the text they were cut from. -/
@[simp] theorem join_tokens (dialect : Dialect) (source : Text) :
    Token.join (tokens dialect source) = source := by
  unfold tokens
  rw [Lexeme.join_place, flatMap_text_lexemes]

/-- A token stands behind the text of those before it. -/
theorem start_of_tokens_eq_append
    {dialect : Dialect}
    {source : Text}
    {before after : List Token}
    {token : Token}
    (split : tokens dialect source = before ++ token :: after) :
    token.start = (Token.join before).byteSize := by
  have placed := Lexeme.eq_place_of_place_eq_append split
  rw [Nat.zero_add, List.map_cons, Lexeme.place] at placed
  exact congrArg Token.start (List.cons.inj placed).1

/-- A text divides at each of its tokens. -/
theorem eq_append_of_tokens_eq_append
    {dialect : Dialect}
    {source : Text}
    {before after : List Token}
    {token : Token}
    (split : tokens dialect source = before ++ token :: after) :
    source = Token.join before ++ (token.text ++ Token.join after) := by
  rw [← join_tokens dialect source, split, Token.join_append]
  rfl

/-- The bytes from the first to the last of some tokens are their text. -/
theorem slice_of_tokens_eq_append
    {dialect : Dialect}
    {source : Text}
    {before rest after : List Token}
    {first : Token}
    (split : tokens dialect source = before ++ (first :: rest ++ after)) :
    (first.span.through (rest.getLastD first).span).slice source =
      Token.join (first :: rest) := by
  have starts := start_of_tokens_eq_append split
  have placed := Lexeme.eq_place_of_place_eq_append split
  rw [Nat.zero_add, List.cons_append] at placed
  have stops := Lexeme.stop_getLastD_of_place_eq_append placed.symm
  have whole : source =
      Token.join before ++ (Token.join (first :: rest) ++ Token.join after) := by
    rw [← Token.join_append, ← Token.join_append, ← split, join_tokens]
  have covered : first.span.through (rest.getLastD first).span =
      ⟨(Token.join before).byteSize,
        (Token.join before).byteSize + (Token.join (first :: rest)).byteSize⟩ := by
    unfold Span.through Token.span
    simp only
    rw [stops, starts, Nat.max_eq_left (Nat.le_add_right _ _)]
  have cut := Span.slice_append (Token.join before) (Token.join (first :: rest))
    (Token.join after)
  rw [← whole] at cut
  rw [covered, cut]

/-! ## What kind of lexeme is where -/

/-- How the lexeme at the front of a text is found: its kind, and how many characters
belong to it besides the first. -/
inductive Classifies (dialect : Dialect) (depth : Nat) : Char → Text → TokenKind × Nat → Prop
  | openBrace {rest : Text} : Classifies dialect depth '{' rest (.openBrace, 0)
  | closeBrace {rest : Text} : Classifies dialect depth '}' rest (.closeBrace, 0)
  | semicolon {rest : Text} : Classifies dialect depth ';' rest (.semicolon, 0)
  | colon {rest : Text} : Classifies dialect depth ':' rest (.colon, 0)
  | openParen {rest : Text} : Classifies dialect depth '(' rest (.openParen, 0)
  | closeParen {rest : Text} : Classifies dialect depth ')' rest (.closeParen, 0)
  | comment {body : Text} {count : Nat} (found : commentEnd? body = some count) :
      Classifies dialect depth '/' ('*' :: body) (.comment, count + 1)
  | openComment {body : Text} (absent : commentEnd? body = none) :
      Classifies dialect depth '/' ('*' :: body) (.invalid, body.length + 1)
  | lineComment {body : Text} (isLess : dialect = .less) (outside : depth = 0) :
      Classifies dialect depth '/' ('/' :: body)
        (.lineComment, countWhile (· != '\n') ('/' :: body))
  | slash {rest : Text}
      (noStar : rest.head? ≠ some '*')
      (single : dialect = .less → depth = 0 → rest.head? ≠ some '/') :
      Classifies dialect depth '/' rest (.slash, 0)
  | atKeyword {rest : Text} (starts : rest.head?.any startsKeyword = true) :
      Classifies dialect depth '@' rest (.atKeyword, countWhile continuesKeyword rest)
  | atSign {rest : Text} (noStart : rest.head?.any startsKeyword = false) :
      Classifies dialect depth '@' rest (.atSign, 0)
  | closedString {quote : Char} {rest : Text}
      (isQuote : quote = '"' ∨ quote = '\'')
      (closed : (stringEnd quote rest).2 = true) :
      Classifies dialect depth quote rest (.string, (stringEnd quote rest).1)
  | openString {quote : Char} {rest : Text}
      (isQuote : quote = '"' ∨ quote = '\'')
      (isOpen : (stringEnd quote rest).2 = false) :
      Classifies dialect depth quote rest (.invalid, (stringEnd quote rest).1)
  | whitespace {first : Char} {rest : Text} (space : isSpace first = true) :
      Classifies dialect depth first rest (.whitespace, countWhile isSpace rest)
  | text {first : Char} {rest : Text} (plain : isSpecial first = false) :
      Classifies dialect depth first rest (.text, countWhile (fun c => !isSpecial c) rest)

theorem classifies_slash (dialect : Dialect) (depth : Nat) (rest : Text) :
    Classifies dialect depth '/' rest (classifySlash dialect depth rest) := by
  unfold classifySlash
  split
  · split
    · next found => exact .comment found
    · next absent => exact .openComment absent
  · split
    · next outside => exact .lineComment outside.1 outside.2
    · next inside => exact .slash (by simp) fun isLess outside => absurd ⟨isLess, outside⟩ inside
  · next noStar noSlash =>
      refine .slash (fun star => ?_) fun _ _ slash => ?_
      · obtain ⟨body, rfl⟩ := List.head?_eq_some_iff.mp star
        exact noStar body rfl
      · obtain ⟨body, rfl⟩ := List.head?_eq_some_iff.mp slash
        exact noSlash body rfl

theorem classifies (dialect : Dialect) (depth : Nat) (first : Char) (rest : Text) :
    Classifies dialect depth first rest (classify dialect depth first rest) := by
  unfold classify
  split
  case h_1 => exact .openBrace
  case h_2 => exact .closeBrace
  case h_3 => exact .semicolon
  case h_4 => exact .colon
  case h_5 => exact .openParen
  case h_6 => exact .closeParen
  case h_7 => exact classifies_slash dialect depth rest
  case h_8 =>
    split
    · next starts => exact .atKeyword starts
    · next noStart => exact .atSign (Bool.eq_false_iff.mpr noStart)
  case h_9 =>
    split
    · next isQuote =>
        simp only
        split
        · next closed => exact .closedString isQuote closed
        · next isOpen => exact .openString isQuote (Bool.eq_false_iff.mpr isOpen)
    · next noQuote =>
        split
        · next space => exact .whitespace space
        · next noSpace => exact .text (by simp_all [isSpecial])

/-- What begins with a space is whitespace, up to the last space of the run. -/
theorem classify_of_isSpace
    {first : Char}
    (space : isSpace first = true)
    (dialect : Dialect)
    (depth : Nat)
    (rest : Text) :
    classify dialect depth first rest = (.whitespace, countWhile isSpace rest) := by
  simp only [isSpace, Bool.or_eq_true, beq_iff_eq] at space
  rcases space with (((rfl | rfl) | rfl) | rfl) | rfl <;> rfl

section

variable {dialect : Dialect} {depth : Nat} {first : Char} {rest : Text}

theorem classify_of_isQuote
    (isQuote : first = '"' ∨ first = '\'') :
    classify dialect depth first rest =
      (if (stringEnd first rest).2 then .string else .invalid, (stringEnd first rest).1) := by
  rcases isQuote with rfl | rfl <;> rfl

theorem classify_of_plain
    (plain : isSpecial first = false) :
    classify dialect depth first rest = (.text, countWhile (fun c => !isSpecial c) rest) := by
  unfold classify
  split
  case h_9 =>
    simp only [isSpecial, Bool.or_eq_false_iff, beq_eq_false_iff_ne] at plain
    simp [plain]
  all_goals exact absurd plain (by decide)

/-- What can be found is what the lexer answers. -/
theorem classifies_iff {lexed : TokenKind × Nat} :
    Classifies dialect depth first rest lexed ↔ classify dialect depth first rest = lexed := by
  refine ⟨fun found => ?_, fun classified => classified ▸ classifies dialect depth first rest⟩
  cases found with
  | comment found => simp [classify, classifySlash, found]
  | openComment absent => simp [classify, classifySlash, absent]
  | lineComment isLess outside => exact if_pos ⟨isLess, outside⟩
  | slash noStar single =>
      change classifySlash dialect depth rest = _
      unfold classifySlash
      split
      · exact absurd rfl noStar
      · exact if_neg fun outside => single outside.1 outside.2 rfl
      · rfl
  | atKeyword starts => exact if_pos starts
  | atSign noStart => exact if_neg (Bool.eq_false_iff.mp noStart)
  | closedString isQuote closed => rw [classify_of_isQuote isQuote, if_pos closed]
  | openString isQuote isOpen => rw [classify_of_isQuote isQuote, isOpen]; rfl
  | whitespace space => exact classify_of_isSpace space dialect depth rest
  | text plain => exact classify_of_plain plain
  | _ => rfl

end

/-- What holds of each lexeme that can be found holds of the lexemes of a text. -/
theorem forall_mem_lexemes
    {dialect : Dialect}
    {holds : Lexeme → Prop}
    (found : ∀ {depth first rest kind count},
      Classifies dialect depth first rest (kind, count) → holds ⟨kind, first :: rest.take count⟩)
    {depth : Nat}
    {text : Text} :
    ∀ lexeme ∈ lexemes dialect depth text, holds lexeme := by
  fun_induction lexemes dialect depth text with
  | case1 => exact nofun
  | case2 depth first rest lexed inductionHypothesis =>
      exact List.forall_mem_cons.mpr ⟨found (classifies dialect depth first rest),
        inductionHypothesis⟩

/-- No lexeme is the end of the text. -/
theorem kind_ne_endOfFile_of_mem_lexemes
    {dialect : Dialect}
    {depth : Nat}
    {text : Text} :
    ∀ lexeme ∈ lexemes dialect depth text, lexeme.kind ≠ .endOfFile :=
  forall_mem_lexemes fun found => by cases found <;> exact nofun

/-- Plain CSS has no line comments. -/
theorem kind_ne_lineComment_of_mem_lexemes
    {depth : Nat}
    {text : Text} :
    ∀ lexeme ∈ lexemes .css depth text, lexeme.kind ≠ .lineComment := by
  refine forall_mem_lexemes fun found => ?_
  cases found with
  | lineComment isLess => exact absurd isLess nofun
  | _ => exact nofun

/-- A token that does not end is a comment exactly if it begins with a slash. -/
theorem isPrefixOf_of_mem_lexemes
    {dialect : Dialect}
    {depth : Nat}
    {text : Text} :
    ∀ lexeme ∈ lexemes dialect depth text, lexeme.kind = .invalid →
      (['/', '*'].isPrefixOf lexeme.text = true ↔ lexeme.text.head? = some '/') := by
  refine forall_mem_lexemes fun found isInvalid => ?_
  cases found with
  | openComment => simp
  | openString isQuote => rcases isQuote with rfl | rfl <;> simp
  | _ => exact absurd isInvalid nofun

/-! ## What tokens cover -/

/-- A lexeme covers something, and only whitespace begins with a space. -/
def Covers (lexeme : Lexeme) : Prop :=
  ∃ first rest, lexeme.text = first :: rest ∧
    (lexeme.kind ≠ .whitespace → isSpace first = false)

theorem covers_of_mem_lexemes
    {dialect : Dialect}
    {depth : Nat}
    {text : Text} :
    ∀ lexeme ∈ lexemes dialect depth text, Covers lexeme := by
  refine forall_mem_lexemes fun {depth first rest _ _} found =>
    ⟨first, _, rfl, fun solid => Bool.eq_false_iff.mpr fun space => solid ?_⟩
  have classified := classify_of_isSpace space dialect depth rest
  rw [classifies_iff.mp found] at classified
  exact congrArg Prod.fst classified

/-- Tokens stand at different offsets. -/
theorem ascending_place
    (offset : Nat)
    {lexemes : List Lexeme}
    (covers : ∀ lexeme ∈ lexemes, Covers lexeme) :
    (∀ token ∈ Lexeme.place offset lexemes, offset ≤ token.start) ∧
      (Lexeme.place offset lexemes).Pairwise fun earlier later => earlier.start < later.start := by
  induction lexemes generalizing offset with
  | nil => exact ⟨nofun, .nil⟩
  | cons lexeme rest inductionHypothesis =>
      obtain ⟨first, others, text, -⟩ := covers lexeme List.mem_cons_self
      have positive : 0 < lexeme.text.byteSize :=
        Text.byteSize_pos_of_ne_nil (by rw [text]; exact List.cons_ne_nil first others)
      obtain ⟨behind, ordered⟩ := inductionHypothesis (offset + lexeme.text.byteSize)
        fun other present => covers other (List.mem_cons_of_mem lexeme present)
      refine ⟨fun token present => ?_, List.pairwise_cons.mpr ⟨fun token present => ?_, ordered⟩⟩
      · rcases List.mem_cons.mp present with rfl | later
        · exact Nat.le_refl _
        · exact Nat.le_trans (Nat.le_add_right _ _) (behind token later)
      · exact Nat.lt_of_lt_of_le (Nat.lt_add_of_pos_right positive) (behind token present)

/-- No token of a text is there twice. -/
theorem nodup_tokens (dialect : Dialect) (source : Text) : (tokens dialect source).Nodup := by
  refine List.Pairwise.imp ?_ (ascending_place 0 covers_of_mem_lexemes).2
  rintro earlier later before rfl
  exact Nat.lt_irrefl _ before

end Lexer
end StyleTypings
