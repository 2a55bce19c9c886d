import Mathlib.Data.List.Basic
import StyleTypings.Proofs.Stylesheet.Grammar
import StyleTypings.Proofs.Stylesheet.Joining
import StyleTypings.Proofs.Stylesheet.Outlines
import StyleTypings.Proofs.Stylesheet.Tiling

/-!
# Texts without strings and comments

Where nothing is quoted and no comment begins, braces, semicolons and parentheses are
tokens wherever they stand. A prelude therefore takes in such a text exactly if it has
no braces and its semicolons stand inside parentheses.
-/

namespace StyleTypings

/-- The nesting of parentheses after a character, never below zero. -/
def parenLevel (depth : Nat) (c : Char) : Nat :=
  if c = '(' then depth + 1 else if c = ')' then depth - 1 else depth

/-- A text without braces whose semicolons stand inside parentheses, of which some are
open before it. -/
def Carried (depth : Nat) : Text → Prop
  | [] => True
  | c :: rest =>
      (c ≠ '{' ∧ c ≠ '}' ∧ (c = ';' → depth ≠ 0)) ∧ Carried (parenLevel depth c) rest

instance decidableCarried : (depth : Nat) → (text : Text) → Decidable (Carried depth text)
  | _, [] => .isTrue trivial
  | depth, c :: rest =>
      have := decidableCarried (parenLevel depth c) rest
      inferInstanceAs <| Decidable <|
        (c ≠ '{' ∧ c ≠ '}' ∧ (c = ';' → depth ≠ 0)) ∧ Carried (parenLevel depth c) rest

/-- The characters that matter to a prelude. -/
def Shapes (c : Char) : Prop :=
  c = '{' ∨ c = '}' ∨ c = ';' ∨ c = '(' ∨ c = ')'

theorem carried_cons_of_not_shapes
    {c : Char}
    (neutral : ¬ Shapes c)
    (depth : Nat)
    (rest : Text) :
    Carried depth (c :: rest) ↔ Carried depth rest := by
  simp only [Shapes, not_or] at neutral
  obtain ⟨noOpen, noClose, noSemicolon, noOpenParen, noCloseParen⟩ := neutral
  rw [Carried, parenLevel, if_neg noOpenParen, if_neg noCloseParen]
  have continues : c ≠ '{' ∧ c ≠ '}' ∧ (c = ';' → depth ≠ 0) :=
    ⟨noOpen, noClose, fun same => absurd same noSemicolon⟩
  exact ⟨And.right, fun carried => ⟨continues, carried⟩⟩

theorem carried_append_of_not_shapes
    {front : Text}
    (neutral : ∀ c ∈ front, ¬ Shapes c)
    (depth : Nat)
    (rest : Text) :
    Carried depth (front ++ rest) ↔ Carried depth rest := by
  induction front with
  | nil => exact Iff.rfl
  | cons c others inductionHypothesis =>
      rw [List.cons_append, carried_cons_of_not_shapes (neutral c List.mem_cons_self)]
      exact inductionHypothesis fun other present => neutral other (List.mem_cons_of_mem c present)

theorem carried_append_of_not_shapes_behind
    {back : Text}
    (neutral : ∀ c ∈ back, ¬ Shapes c)
    (depth : Nat)
    (front : Text) :
    Carried depth (front ++ back) ↔ Carried depth front := by
  induction front generalizing depth with
  | nil =>
      have nothing := carried_append_of_not_shapes neutral depth []
      rwa [List.append_nil] at nothing
  | cons c rest inductionHypothesis =>
      rw [List.cons_append, Carried, Carried, inductionHypothesis]

/-- What a carried text is, character by character. -/
theorem carried_iff {depth : Nat} {text : Text} :
    Carried depth text ↔
      '{' ∉ text ∧ '}' ∉ text ∧
        ∀ front back, text = front ++ ';' :: back → front.foldl parenLevel depth ≠ 0 := by
  induction text generalizing depth with
  | nil => simp [Carried]
  | cons c rest inductionHypothesis =>
      rw [Carried, inductionHypothesis]
      constructor
      · rintro ⟨⟨noOpen, noClose, inside⟩, noOpens, noCloses, insides⟩
        refine ⟨?_, ?_, fun front back split => ?_⟩
        · simpa using ⟨fun same => noOpen same.symm, noOpens⟩
        · simpa using ⟨fun same => noClose same.symm, noCloses⟩
        · cases front with
          | nil => exact inside (List.cons.inj split).1
          | cons first others =>
              obtain ⟨rfl, later⟩ := List.cons.inj split
              exact insides others back later
      · rintro ⟨noOpen, noClose, inside⟩
        rw [List.mem_cons, not_or] at noOpen noClose
        refine ⟨⟨fun same => noOpen.1 same.symm, fun same => noClose.1 same.symm, ?_⟩,
          noOpen.2, noClose.2, fun front back split => ?_⟩
        · rintro rfl
          exact inside [] rest rfl
        · exact inside (c :: front) back (by rw [split]; rfl)

namespace Lexer

/-- A text without quotes in which no comment begins. -/
structure Bare (text : Text) : Prop where
  quotes : '"' ∉ text ∧ '\'' ∉ text
  comments : ∀ front back, text ≠ front ++ '/' :: '*' :: back

theorem Bare.infix
    {front middle back : Text}
    (bare : Bare (front ++ (middle ++ back))) :
    Bare middle := by
  obtain ⟨⟨noDouble, noSingle⟩, comments⟩ := bare
  simp only [List.mem_append, not_or] at noDouble noSingle
  refine ⟨⟨noDouble.2.1, noSingle.2.1⟩, fun before after split => ?_⟩
  exact comments (front ++ before) (after ++ back) (by rw [split]; simp)

theorem Bare.drop
    {first : Char}
    {rest : Text}
    (bare : Bare (first :: rest))
    (count : Nat) :
    Bare (rest.drop count) := by
  have whole : first :: rest = (first :: rest.take count) ++ (rest.drop count ++ []) := by simp
  rw [whole] at bare
  exact bare.infix

/-- The kinds of tokens of a bare text. -/
def IsBareKind (kind : TokenKind) : Prop :=
  kind.isPlain = true ∧ kind ≠ .comment ∧ kind ≠ .string

instance (kind : TokenKind) : Decidable (IsBareKind kind) :=
  inferInstanceAs (Decidable (_ ∧ _ ∧ _))

theorem not_shapes_of_isSpace
    {c : Char}
    (space : isSpace c = true) :
    ¬ Shapes c := by
  rintro (rfl | rfl | rfl | rfl | rfl) <;> exact absurd space (by decide)

/-- What continues an at-keyword is neither a space nor a backslash, nor does it matter
to a prelude. -/
theorem neutral_of_continuesKeyword
    {c : Char}
    (continues : continuesKeyword c = true) :
    isSpace c = false ∧ ¬ Shapes c ∧ c ≠ '\\' := by
  refine ⟨Bool.eq_false_iff.mpr fun space => ?_, ?_, ?_⟩
  · rw [continuesKeyword_of_isSpace space] at continues
    exact absurd continues nofun
  · rintro (rfl | rfl | rfl | rfl | rfl) <;> exact absurd continues (by decide)
  · rintro rfl
    exact absurd continues (by decide)

theorem neutral_of_isSpecial
    {c : Char}
    (plain : isSpecial c = false) :
    isSpace c = false ∧ ¬ Shapes c := by
  refine ⟨?_, ?_⟩
  · simp only [isSpecial, Bool.or_eq_false_iff] at plain
    simp [plain]
  · rintro (rfl | rfl | rfl | rfl | rfl) <;> exact absurd plain (by decide)

/-- What a prelude makes of the token at the front of a bare text. -/
structure Takes (depth : Nat) (first : Char) (rest : Text) : Prop where
  kind : IsBareKind (classify .css 0 first rest).1
  /-- Spaces stand in whitespace only, and nothing else does. -/
  spaces : ∀ c ∈ first :: rest.take (classify .css 0 first rest).2,
    isSpace c = ((classify .css 0 first rest).1 == .whitespace)
  /-- A backslash stands in plain text. -/
  backslash : '\\' ∈ first :: rest.take (classify .css 0 first rest).2 →
    (classify .css 0 first rest).1 = .text
  carried : Carried depth (first :: rest) ↔
    (classify .css 0 first rest).1.continuesPrelude depth = true ∧
      Carried ((classify .css 0 first rest).1.depthAfter depth)
        (rest.drop (classify .css 0 first rest).2)

/-- A token that does not matter is taken in with all of its characters. -/
theorem takes_of_not_shapes
    {first : Char}
    {rest : Text}
    {kind : TokenKind}
    {count : Nat}
    (classified : classify .css 0 first rest = (kind, count))
    (isBare : IsBareKind kind)
    (spaces : ∀ c ∈ first :: rest.take count, isSpace c = (kind == .whitespace))
    (backslash : '\\' ∈ first :: rest.take count → kind = .text)
    (neutral : ∀ c ∈ first :: rest.take count, ¬ Shapes c)
    (depth : Nat)
    (continues : kind.continuesPrelude depth = true)
    (level : kind.depthAfter depth = depth) :
    Takes depth first rest := by
  refine ⟨by rwa [classified], by rwa [classified], by rwa [classified], ?_⟩
  have split : first :: rest = (first :: rest.take count) ++ rest.drop count := by simp
  rw [classified, level, split, carried_append_of_not_shapes neutral]
  exact ⟨fun carried => ⟨continues, carried⟩, And.right⟩

/-- A character by itself that does not matter. -/
theorem takes_of_single
    {first : Char}
    {rest : Text}
    {kind : TokenKind}
    (classified : classify .css 0 first rest = (kind, 0))
    (isBare : IsBareKind kind)
    (noSpace : isSpace first = (kind == .whitespace))
    (noEscape : '\\' ≠ first)
    (neutral : ¬ Shapes first)
    (depth : Nat)
    (continues : kind.continuesPrelude depth = true)
    (level : kind.depthAfter depth = depth) :
    Takes depth first rest :=
  takes_of_not_shapes classified isBare (List.forall_mem_singleton.mpr noSpace)
    (fun present => absurd (List.mem_singleton.mp present) noEscape)
    (List.forall_mem_singleton.mpr neutral) depth continues level

theorem takes_of_shapes
    {first : Char}
    (shapes : Shapes first)
    (rest : Text)
    (depth : Nat) :
    Takes depth first rest := by
  rcases shapes with rfl | rfl | rfl | rfl | rfl
  all_goals
    refine ⟨of_decide_eq_true rfl, ?_, ?_, ?_⟩
    · exact List.forall_mem_singleton.mpr rfl
    · exact fun present => absurd (List.mem_singleton.mp present) (by decide)
    · change Carried depth (_ :: rest) ↔ _ ∧ Carried _ rest
      simp [Carried, parenLevel, TokenKind.continuesPrelude, TokenKind.depthAfter, classify]

theorem takes_of_bare
    {first : Char}
    {rest : Text}
    (bare : Bare (first :: rest))
    (depth : Nat) :
    Takes depth first rest := by
  by_cases shapes : Shapes first
  · exact takes_of_shapes shapes rest depth
  have noQuote : ¬ (first = '"' ∨ first = '\'') := by
    rintro (rfl | rfl)
    · exact bare.quotes.1 List.mem_cons_self
    · exact bare.quotes.2 List.mem_cons_self
  generalize classified : classify .css 0 first rest = lexed
  cases classifies_iff.mpr classified with
  | openBrace | closeBrace | semicolon | openParen | closeParen =>
      exact absurd (by simp [Shapes]) shapes
  | lineComment isLess => exact absurd isLess nofun
  | comment | openComment => exact absurd rfl (bare.comments [] _)
  | closedString isQuote | openString isQuote => exact absurd isQuote noQuote
  | colon | slash | atSign =>
      exact takes_of_single classified (by decide) rfl (by decide) shapes depth rfl rfl
  | atKeyword =>
      have neutral : ∀ c ∈ '@' :: rest.take (countWhile continuesKeyword rest),
          isSpace c = false ∧ ¬ Shapes c ∧ c ≠ '\\' :=
        List.forall_mem_cons.mpr ⟨⟨rfl, shapes, by decide⟩, fun c present =>
          neutral_of_continuesKeyword (test_of_mem_take_countWhile present)⟩
      exact takes_of_not_shapes classified (by decide)
        (fun c present => (neutral c present).1)
        (fun present => absurd rfl (neutral _ present).2.2)
        (fun c present => (neutral c present).2.1) depth rfl rfl
  | whitespace space =>
      have spaces : ∀ c ∈ first :: rest.take (countWhile isSpace rest), isSpace c = true :=
        List.forall_mem_cons.mpr ⟨space, fun c present => test_of_mem_take_countWhile present⟩
      exact takes_of_not_shapes classified (by decide) spaces
        (fun present => absurd (spaces _ present) (by decide))
        (fun c present => not_shapes_of_isSpace (spaces c present)) depth rfl rfl
  | text plain =>
      have neutral : ∀ c ∈ first :: rest.take (countWhile (fun c => !isSpecial c) rest),
          isSpace c = false ∧ ¬ Shapes c :=
        List.forall_mem_cons.mpr ⟨neutral_of_isSpecial plain, fun c present =>
          neutral_of_isSpecial (by simpa using test_of_mem_take_countWhile present)⟩
      exact takes_of_not_shapes classified (by decide)
        (fun c present => (neutral c present).1) (fun _ => rfl)
        (fun c present => (neutral c present).2) depth rfl rfl

/-- A lexeme of a bare text: spaces stand in whitespace only, which has nothing else. -/
structure IsBareLexeme (lexeme : Lexeme) : Prop where
  kind : IsBareKind lexeme.kind
  spaces : ∀ c ∈ lexeme.text, isSpace c = (lexeme.kind == .whitespace)
  backslash : '\\' ∈ lexeme.text → lexeme.kind = .text
  nonempty : lexeme.text ≠ []

theorem isBareLexeme_of_mem_lexemes
    {text : Text}
    (bare : Bare text) :
    ∀ lexeme ∈ lexemes .css 0 text, IsBareLexeme lexeme := by
  induction length : text.length using Nat.strongRecOn generalizing text with
  | _ size inductionHypothesis =>
  subst length
  cases text with
  | nil =>
      rw [lexemes]
      exact fun lexeme present => absurd present List.not_mem_nil
  | cons first rest =>
      intro lexeme present
      rw [lexemes_cons] at present
      rcases List.mem_cons.mp present with rfl | later
      · have takes := takes_of_bare bare 0
        exact ⟨takes.kind, takes.spaces, takes.backslash, List.cons_ne_nil _ _⟩
      · refine inductionHypothesis _ ?_ (bare.drop _) rfl lexeme later
        rw [List.length_drop, List.length_cons]
        omega

/-- A bare text that ends in a space or a backslash ends in whitespace or plain text. -/
theorem ends_of_getLast?
    {text : Text}
    {c : Char}
    (bare : Bare text)
    (isLast : text.getLast? = some c)
    (isEnd : isSpace c = true ∨ c = '\\') :
    ∀ last ∈ (lexemes .css 0 text).getLast?, last.kind = .text ∨ last.kind = .whitespace := by
  intro last found
  have isBare := isBareLexeme_of_mem_lexemes bare last (List.mem_of_getLast? found)
  obtain ⟨init, split⟩ := List.getLast?_eq_some_iff.mp found
  have whole := flatMap_text_lexemes .css 0 text
  rw [split, List.flatMap_append, List.flatMap_singleton] at whole
  have inside : c ∈ last.text := by
    rw [← whole, List.getLast?_append_of_ne_nil _ isBare.nonempty] at isLast
    exact List.mem_of_getLast? isLast
  rcases isEnd with space | rfl
  · have kind := isBare.spaces c inside
    rw [space] at kind
    exact .inr (beq_iff_eq.mp kind.symm)
  · exact .inl (isBare.backslash inside)

/-- A prelude takes in a bare text exactly if the text is carried. -/
theorem runs_place_lexemes_iff
    {text : Text}
    (bare : Bare text)
    (depth offset : Nat) :
    Parser.Runs depth (Lexeme.place offset (lexemes .css 0 text)) ↔ Carried depth text := by
  induction length : text.length using Nat.strongRecOn generalizing text depth offset with
  | _ size inductionHypothesis =>
  subst length
  cases text with
  | nil =>
      rw [lexemes]
      exact Iff.rfl
  | cons first rest =>
      rw [lexemes_cons, Lexeme.place, (takes_of_bare bare depth).carried]
      refine and_congr_right fun _ => inductionHypothesis _ ?_ (bare.drop _) _ _ rfl
      rw [List.length_drop, List.length_cons]
      omega

/-- Plain text and whitespace end before every other character that is not part of
plain text. -/
theorem classify_append_of_special
    {first : Char}
    {rest back : Text}
    (ends : (classify .css 0 first rest).1 = .text ∨ (classify .css 0 first rest).1 = .whitespace)
    (special : ∀ c ∈ back.head?, isSpecial c = true ∧ isSpace c = false) :
    classify .css 0 first (rest ++ back) = classify .css 0 first rest := by
  generalize classified : classify .css 0 first rest = lexed at ends ⊢
  cases classifies_iff.mpr classified with
  | whitespace space =>
      rw [classify_of_isSpace space,
        countWhile_append (.inr fun c isFirst => (special c isFirst).2)]
  | text plain =>
      have stops : ∀ c ∈ back.head?, (!isSpecial c) = false := fun c isFirst => by
        rw [(special c isFirst).1]
        rfl
      rw [classify_of_plain plain, countWhile_append (.inr stops)]
  | _ => exact ends.elim nofun nofun

/-- A text that ends in plain text or whitespace is lexed by itself before a character
that is part of neither. -/
theorem lexemes_append_of_special
    {front back : Text}
    (ends : ∀ last ∈ (lexemes .css 0 front).getLast?,
      last.kind = .text ∨ last.kind = .whitespace)
    (special : ∀ c ∈ back.head?, isSpecial c = true ∧ isSpace c = false) :
    lexemes .css 0 (front ++ back) = lexemes .css 0 front ++ lexemes .css 0 back := by
  induction length : front.length using Nat.strongRecOn generalizing front with
  | _ size inductionHypothesis =>
  subst length
  cases front with
  | nil =>
      rw [lexemes]
      rfl
  | cons first rest =>
      rw [lexemes_cons] at ends ⊢
      rw [List.cons_append, lexemes_cons first (rest ++ back)]
      have less : (rest.drop (classify .css 0 first rest).2).length < (first :: rest).length := by
        rw [List.length_drop, List.length_cons]
        omega
      have later := @inductionHypothesis _ less (rest.drop (classify .css 0 first rest).2)
        (fun last isLast => ends last (by rw [List.getLast?_cons, isLast]; rfl)) rfl
      have within := classify_le .css 0 first rest
      have same : classify .css 0 first (rest ++ back) = classify .css 0 first rest := by
        rcases Nat.lt_or_eq_of_le within with inside | whole
        · exact classify_append (.inl inside)
        · have isLast : (lexemes .css 0 (rest.drop (classify .css 0 first rest).2)) = [] := by
            rw [whole, List.drop_length, lexemes]
          rw [isLast] at ends
          exact classify_append_of_special (ends _ rfl) special
      rw [same, List.take_append_of_le_length within, List.drop_append_of_le_length within, later,
        List.cons_append]

end Lexer

namespace Parser

open Lexer

/-! ## Preludes of bare texts -/

theorem dropEndWhile_append
    {test : Char → Bool}
    {front back : Text}
    (passes : ∀ c ∈ back, test c = true)
    (stops : ∀ c ∈ front.getLast?, test c = false) :
    Text.dropEndWhile test (front ++ back) = front := by
  unfold Text.dropEndWhile
  rw [List.reverse_append, List.dropWhile_append_of_pos
    (fun c present => passes c (List.mem_reverse.mp present))]
  cases last : front.reverse with
  | nil =>
      rw [List.reverse_eq_nil_iff.mp last]
      rfl
  | cons c others =>
      rw [List.dropWhile_cons_of_neg, ← last, List.reverse_reverse]
      refine Bool.eq_false_iff.mp (stops c ?_)
      rw [← List.head?_reverse, last]
      rfl

/-- Tokens of a bare text. -/
def AreBare (tokens : List Token) : Prop :=
  ∀ token ∈ tokens, IsBareLexeme token.lexeme

theorem areBare_of_mem_lexemes
    {text : Text}
    {tokens : List Token}
    (bare : Bare text)
    (lexed : lexemes .css 0 text = tokens.map Token.lexeme) :
    AreBare tokens := by
  intro token present
  refine isBareLexeme_of_mem_lexemes bare token.lexeme ?_
  rw [lexed]
  exact List.mem_map_of_mem present

/-- Of bare tokens only whitespace is trivia. -/
theorem whitespace_of_isTrivia
    {token : Token}
    (bare : IsBareLexeme token.lexeme)
    (trivia : token.kind.isTrivia = true) :
    token.kind = .whitespace := by
  obtain ⟨isPlain, noComment, -⟩ := bare.kind
  change token.kind.isPlain = true at isPlain
  change token.kind ≠ .comment at noComment
  cases kind : token.kind <;> simp_all [TokenKind.isTrivia, TokenKind.isPlain]

/-- The text of a prelude of bare tokens is theirs but for the spaces at its end. -/
theorem text_ofTokens_of_areBare
    {first : Token}
    {rest : List Token}
    (bare : AreBare (first :: rest))
    (noKeyword : first.kind ≠ .atKeyword)
    (isSolid : first.kind.isTrivia = false) :
    (Prelude.ofTokens (first :: rest)).text =
      Text.dropEndWhile isSpace (Token.join (first :: rest)) := by
  have made : Prelude.ofTokens (first :: rest) =
      ⟨none, (first :: rest).reverse, nesting 0 (first :: rest)⟩ := if_neg noKeyword
  obtain ⟨inner, trail, rfl, content, kept, last⟩ :=
    @Prelude.exists_content_eq (Prelude.ofTokens (first :: rest)) first rest
      (by rw [made, List.reverse_reverse]) isSolid
  have trailing : solid trail = [] := by
    rw [solid_append] at kept
    exact List.append_cancel_left (kept.symm.trans (List.append_nil _).symm)
  have isTrivia : ∀ token ∈ trail, token.kind.isTrivia = true := by
    simpa using List.filter_eq_nil_iff.mp trailing
  have bareToo : AreBare ((first :: inner) ++ trail) := bare
  unfold Prelude.text
  rw [content, ← List.cons_append, Token.join_append]
  refine (dropEndWhile_append ?_ ?_).symm
  · intro c present
    obtain ⟨token, among, inside⟩ := List.mem_flatMap.mp present
    have isBare := bareToo token (List.mem_append_right _ among)
    rw [isBare.spaces c inside]
    exact beq_iff_eq.mpr (whitespace_of_isTrivia isBare (isTrivia token among))
  · intro c isLast
    obtain ⟨init, final, split⟩ : ∃ init final, first :: inner = init ++ [final] :=
      ⟨_, _, (List.dropLast_concat_getLast (List.cons_ne_nil first inner)).symm⟩
    have isFinal : inner.getLastD first = final := by
      have lastOfAll : (first :: inner).getLast? = some final := by
        rw [split, List.getLast?_concat]
      rw [List.getLast?_cons] at lastOfAll
      rw [List.getLastD_eq_getLast?]
      exact Option.some.inj lastOfAll
    have isBare := bareToo final (by rw [split]; simp)
    have nonempty : final.text ≠ [] := isBare.nonempty
    have inside : c ∈ final.text := by
      rw [split, Token.join_append] at isLast
      have joined : Token.join [final] = final.text := List.append_nil _
      rw [joined, List.getLast?_append_of_ne_nil _ nonempty] at isLast
      exact List.mem_of_getLast? isLast
    rw [isBare.spaces c inside]
    refine beq_eq_false_iff_ne.mpr fun isSpace => ?_
    rw [isFinal] at last
    rw [show final.kind = .whitespace from isSpace] at last
    exact absurd last nofun

/-- The header of a block behind bare tokens that begin with plain text. -/
theorem exists_toHeader_of_areBare
    {first : Token}
    {rest : List Token}
    (bare : AreBare (first :: rest))
    (isText : first.kind = .text)
    (brace : Token) :
    ∃ span, (Prelude.ofTokens (first :: rest)).toHeader brace =
      .selector (Text.dropEndWhile isSpace (Token.join (first :: rest))) span := by
  have noKeyword : (Prelude.ofTokens (first :: rest)).keyword = none := by
    rw [Prelude.ofTokens, if_neg (by rw [isText]; decide)]
  have text := text_ofTokens_of_areBare bare (by rw [isText]; decide) (by rw [isText]; rfl)
  unfold Prelude.toHeader
  rw [noKeyword, text]
  exact ⟨_, rfl⟩

/-- Bare tokens after plain text are a prelude exactly if their text is carried. -/
theorem isPrelude_iff_carried
    {first : Token}
    {rest : List Token}
    {text : Text}
    (bare : Bare text)
    (isText : first.kind = .text)
    (lexed : lexemes .css 0 text = (first :: rest).map Token.lexeme) :
    IsPrelude (first :: rest) ↔ Carried 0 text := by
  have same : (first :: rest).map Token.lexeme =
      (Lexeme.place 0 (lexemes .css 0 text)).map Token.lexeme := by
    rw [Lexeme.map_lexeme_place, lexed]
  rw [← runs_place_lexemes_iff bare 0 0]
  constructor
  · rintro ⟨-, runs⟩
    exact Runs.of_map_lexeme_eq runs same
  · intro runs
    exact ⟨by rw [isText]; rfl, Runs.of_map_lexeme_eq runs same.symm⟩

/-- The first token of a text that is not empty. -/
theorem exists_tokens_cons (c : Char) (rest : Text) :
    ∃ first others, tokens .css (c :: rest) = first :: others ∧
      first.kind = (classify .css 0 c rest).1 := by
  unfold tokens
  rw [lexemes_cons, Lexeme.place]
  exact ⟨_, _, rfl, rfl⟩

theorem lexemes_braces : lexemes .css 0 "\x7b\x7d" =
    [⟨.openBrace, ['{']⟩, ⟨.closeBrace, ['}']⟩] := by
  have opened : classify .css 0 '{' ['}'] = (.openBrace, 0) := rfl
  have closed : classify .css 0 '}' [] = (.closeBrace, 0) := rfl
  change lexemes .css 0 ['{', '}'] = _
  rw [lexemes_cons, opened, List.take_zero, List.drop_zero, lexemes_cons, closed, List.take_zero,
    List.drop_zero, lexemes]

/-- A bare text that is carried is the selector of the block behind it, but for the
spaces at its end. -/
theorem parse_append_braces
    {first : Char}
    {rest : Text}
    (bare : Bare (first :: rest))
    (carried : Carried 0 (first :: rest))
    (isText : (classify .css 0 first rest).1 = .text)
    (ends : ∀ last ∈ (lexemes .css 0 (first :: rest)).getLast?,
      last.kind = .text ∨ last.kind = .whitespace) :
    ∃ selectorSpan span,
      parse (first :: rest ++ "\x7b\x7d") =
        ⟨⟨[.rule (Text.dropEndWhile isSpace (first :: rest)) selectorSpan span []],
          ⟨0, Text.byteSize (first :: rest ++ "\x7b\x7d")⟩⟩, []⟩ := by
  let source : Text := first :: rest ++ "\x7b\x7d"
  have lexed : lexemes .css 0 source = lexemes .css 0 (first :: rest) ++
      [⟨.openBrace, ['{']⟩, ⟨.closeBrace, ['}']⟩] := by
    rw [← lexemes_braces]
    refine lexemes_append_of_special ends ?_
    rintro c ⟨⟩
    exact ⟨rfl, rfl⟩
  let offset := 0 + Text.byteSize ((lexemes .css 0 (first :: rest)).flatMap Lexeme.text)
  let brace : Token := ⟨.openBrace, ['{'], offset⟩
  let close : Token := ⟨.closeBrace, ['}'], brace.stop⟩
  have placed : tokens .css source = tokens .css (first :: rest) ++ brace :: [close] := by
    unfold tokens
    rw [lexed, Lexeme.place_append]
    rfl
  obtain ⟨head, others, begins⟩ := exists_tokens_cons first rest
  rw [isText] at begins
  have headLexed : lexemes .css 0 (first :: rest) = (head :: others).map Token.lexeme := by
    rw [← begins.1]
    exact (Lexeme.map_lexeme_place 0 _).symm
  have isPrelude : IsPrelude (head :: others) :=
    (isPrelude_iff_carried bare begins.2 headLexed).mpr carried
  obtain ⟨selectorSpan, isSelector⟩ :=
    exists_toHeader_of_areBare (areBare_of_mem_lexemes bare headLexed) begins.2 brace
  rw [← begins.1, join_tokens, begins.1] at isSelector
  have reads : ReadsAll (tokens .css source)
      [((Prelude.ofTokens (head :: others)).toHeader brace).toNode [] close.span] := by
    refine ⟨_, [], [], ?_, .closed, (List.append_nil _).symm⟩
    rw [placed, begins.1]
    exact .block (.inr isPrelude) rfl (.done true _) .closed rfl (.done false [])
  have parsed := reads.parse_eq
  rw [isSelector] at parsed
  exact ⟨_, _, parsed⟩

end Parser
end StyleTypings
