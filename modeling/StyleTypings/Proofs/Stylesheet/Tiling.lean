import StyleTypings.Proofs.Stylesheet.Reach
import StyleTypings.Proofs.Stylesheet.Statements

/-!
# Tokens tile a text

The tokens of a text stand one behind the other from its first byte to its last. None
of them is empty, and all of them are cut between characters. A token that does not
end is an open comment, which reaches to the end of the text, or an open string, which
stops before a line feed. Line comments are found in LESS only, where no parenthesis is
open.

What opens and what closes is said here without the scanner: an escape by the number of
backslashes in front of a character, an open parenthesis by counting from it onwards.
-/

namespace StyleTypings

/-- The end of a text hides the character behind it: the number of backslashes there
is odd. -/
def Text.EndsEscaping (text : Text) : Prop :=
  (text.reverse.takeWhile (· == '\\')).length % 2 = 1

instance (text : Text) : Decidable text.EndsEscaping :=
  inferInstanceAs (Decidable (_ = 1))

namespace Token

/-- Tokens stand one behind the other between two offsets, and none of them is empty. -/
inductive Abut : Nat → List Token → Nat → Prop
  | nil (offset : Nat) : Abut offset [] offset
  | cons
      {token : Token}
      {rest : List Token}
      {finish : Nat}
      (wide : token.span.start < token.span.stop)
      (behind : Abut token.span.stop rest finish) :
      Abut token.span.start (token :: rest) finish

/-- A comment that no `*/` ends, up to the end of its source. -/
def IsOpenComment (text after : Text) : Prop :=
  ∃ body, text = '/' :: '*' :: body ∧ ¬['*', '/'] <:+: body ∧ after = []

/-- A string without a closing quote, up to the end of its source or to the first line
feed. Quotes and line feeds count unless they are escaped. -/
def IsOpenString (text after : Text) : Prop :=
  ∃ quote body, (quote = '"' ∨ quote = '\'') ∧ text = quote :: body ∧
    (∀ front c back, body = front ++ c :: back → ¬Text.EndsEscaping front →
      c ≠ quote ∧ c ≠ '\n') ∧
    (after = [] ∨ after.head? = some '\n' ∧ ¬Text.EndsEscaping body)

/-- Every parenthesis opened among some tokens is closed there: at some point behind it
more have been closed than opened. -/
def ParensClosed (tokens : List Token) : Prop :=
  ∀ front paren back, tokens = front ++ paren :: back → paren.kind = .openParen →
    ∃ inside outside, back = inside ++ outside ∧
      inside.countP (·.kind = .openParen) < inside.countP (·.kind = .closeParen)

end Token

namespace Lexer

/-! ## Comments and strings that do not end -/

theorem commentEnd?_eq_none {text : Text} (absent : commentEnd? text = none) :
    ¬['*', '/'] <:+: text := by
  fun_induction commentEnd? text with
  | case1 => simp
  | case2 rest => exact absurd absent (Option.some_ne_none 2)
  | case3 c rest noEnd inductionHypothesis =>
      intro inside
      rcases List.infix_cons_iff.mp inside with front | later
      · obtain ⟨after, split⟩ := front
        obtain ⟨rfl, slash⟩ := List.cons.inj split
        exact noEnd after rfl slash.symm
      · exact inductionHypothesis (Option.map_eq_none_iff.mp absent) later

theorem not_endsEscaping_nil : ¬Text.EndsEscaping [] := by decide

/-- An escape in front of a text hides nothing behind that text. -/
theorem endsEscaping_escape (c : Char) (front : Text) :
    Text.EndsEscaping ('\\' :: c :: front) ↔ Text.EndsEscaping front := by
  have reversed : ('\\' :: c :: front).reverse = front.reverse ++ [c, '\\'] := by simp
  unfold Text.EndsEscaping
  rw [reversed, List.takeWhile_append]
  split
  · next whole =>
      rw [List.length_append, whole]
      by_cases escape : c = '\\'
      · subst escape
        exact iff_of_eq (congrArg (· = 1) (Nat.add_mod_right _ 2))
      · have nothing : [c, '\\'].takeWhile (· == '\\') = [] :=
          List.takeWhile_cons_of_neg (by simpa using escape)
        rw [nothing]
        rfl
  · exact Iff.rfl

/-- A character that is no backslash hides nothing. -/
theorem endsEscaping_cons {c : Char} (plain : c ≠ '\\') (front : Text) :
    Text.EndsEscaping (c :: front) ↔ Text.EndsEscaping front := by
  have stops : [c].takeWhile (· == '\\') = [] :=
    List.takeWhile_cons_of_neg (by simpa using plain)
  unfold Text.EndsEscaping
  rw [List.reverse_cons, List.takeWhile_append, stops, List.append_nil]
  split
  · next whole => rw [whole]
  · exact Iff.rfl

/-- A backslash hides what is behind it unless it is hidden itself. -/
theorem endsEscaping_concat (front : Text) (c : Char) :
    Text.EndsEscaping (front ++ [c]) ↔ c = '\\' ∧ ¬Text.EndsEscaping front := by
  unfold Text.EndsEscaping
  rw [List.reverse_append, List.reverse_singleton, List.singleton_append]
  by_cases escape : c = '\\'
  · subst escape
    rw [List.takeWhile_cons_of_pos (by decide), List.length_cons]
    simp only [true_and]
    omega
  · rw [List.takeWhile_cons_of_neg (by simpa using escape)]
    simp [escape]

/-- What a scan has found of a string that it did not close. -/
structure StopsOpen (quote : Char) (text : Text) (count : Nat) : Prop where
  inside : ∀ front c back, text.take count = front ++ c :: back → ¬Text.EndsEscaping front →
    c ≠ quote ∧ c ≠ '\n'
  behind : text.drop count = [] ∨
    (text.drop count).head? = some '\n' ∧ ¬Text.EndsEscaping (text.take count)

/-- A string that is not closed has no end in it, and stops at the end of the text or
before a line feed. -/
theorem stopsOpen_stringEnd
    {quote : Char}
    (isQuote : quote ≠ '\\')
    {text : Text}
    (isOpen : (stringEnd quote text).2 = false) :
    StopsOpen quote text (stringEnd quote text).1 := by
  fun_induction stringEnd quote text with
  | case1 => exact ⟨fun front c back split => absurd split (by simp), .inl rfl⟩
  | case2 =>
      refine ⟨fun front c back split _ => ?_, .inl rfl⟩
      have present : c ∈ ['\\'].take 1 :=
        split.symm ▸ List.mem_append_right front List.mem_cons_self
      have only : c = '\\' := List.mem_singleton.mp present
      exact ⟨only ▸ isQuote.symm, only ▸ by decide⟩
  | case3 c rest reached inductionHypothesis =>
      obtain ⟨inside, behind⟩ := inductionHypothesis isOpen
      refine ⟨fun front other back split plain => ?_, ?_⟩
      · rw [List.take_succ_cons, List.take_succ_cons] at split
        -- The two characters of the escape itself: a backslash, and one that it hides.
        cases front with
        | nil =>
            obtain ⟨rfl, -⟩ := List.cons.inj split
            exact ⟨isQuote.symm, by decide⟩
        | cons escape front =>
            obtain ⟨rfl, behindEscape⟩ := List.cons.inj split
            cases front with
            | nil => exact absurd rfl plain
            | cons hidden front =>
                obtain ⟨rfl, later⟩ := List.cons.inj behindEscape
                exact inside front other back later fun escapes =>
                  plain ((endsEscaping_escape c front).mpr escapes)
      · rw [List.drop_succ_cons, List.drop_succ_cons, List.take_succ_cons, List.take_succ_cons,
          endsEscaping_escape]
        exact behind
  | case4 =>
      exact ⟨fun front c back split => absurd split (by simp), .inr ⟨rfl, not_endsEscaping_nil⟩⟩
  | case5 => exact absurd isOpen.symm Bool.false_ne_true
  | case6 c rest noEnd noEscape noFeed noQuote reached inductionHypothesis =>
      obtain ⟨inside, behind⟩ := inductionHypothesis isOpen
      have plain := ne_backslash noEnd noEscape
      refine ⟨fun front other back split notHidden => ?_, ?_⟩
      · rw [List.take_succ_cons] at split
        cases front with
        | nil =>
            obtain ⟨rfl, -⟩ := List.cons.inj split
            exact ⟨noQuote, noFeed⟩
        | cons first front =>
            obtain ⟨rfl, later⟩ := List.cons.inj split
            exact inside front other back later fun escapes =>
              notHidden ((endsEscaping_cons plain front).mpr escapes)
      · rw [List.drop_succ_cons, List.take_succ_cons, endsEscaping_cons plain]
        exact behind

/-! ## What kind of token begins where -/

/-- What does not end is an open comment or an open string. -/
theorem Classifies.isOpen
    {dialect : Dialect}
    {depth count : Nat}
    {first : Char}
    {rest : Text}
    (found : Classifies dialect depth first rest (.invalid, count)) :
    Token.IsOpenComment (first :: rest.take count) (rest.drop count) ∨
      Token.IsOpenString (first :: rest.take count) (rest.drop count) := by
  cases found with
  | @openComment body absent =>
      have whole : ('*' :: body).length = body.length + 1 := List.length_cons
      rw [← whole, List.take_length, List.drop_length]
      exact .inl ⟨body, rfl, commentEnd?_eq_none absent, rfl⟩
  | openString isQuote isOpen =>
      have noBackslash : first ≠ '\\' := by
        rcases isQuote with rfl | rfl <;> decide
      obtain ⟨inside, behind⟩ := stopsOpen_stringEnd noBackslash isOpen
      exact .inr ⟨first, _, isQuote, rfl, inside, behind⟩

/-- How the token at a place of a text was found. -/
theorem exists_classifies
    {dialect : Dialect}
    {depth offset : Nat}
    {text : Text}
    {before after : List Token}
    {token : Token}
    (split : Lexeme.place offset (lexemes dialect depth text) = before ++ token :: after) :
    ∃ first rest count,
      Classifies dialect (Parser.nesting depth before) first rest (token.kind, count) ∧
        token.text = first :: rest.take count ∧ Token.join after = rest.drop count := by
  fun_induction lexemes dialect depth text generalizing before offset with
  | case1 => exact absurd split.symm (List.append_ne_nil_of_right_ne_nil before (List.cons_ne_nil token after))
  | case2 depth first rest lexed =>
      rename_i inductionHypothesis
      cases before with
      | nil =>
          obtain ⟨rfl, later⟩ := List.cons.inj split
          refine ⟨first, rest, _, classifies dialect depth first rest, rfl, ?_⟩
          rw [← later, Lexeme.join_place, flatMap_text_lexemes]
          rfl
      | cons earlier before =>
          obtain ⟨rfl, later⟩ := List.cons.inj split
          exact inductionHypothesis later

end Lexer

/-! ## Parentheses -/

namespace Parser

/-- As long as no more parentheses are closed than are open, the nesting counts them. -/
theorem nesting_add_countP
    {depth : Nat}
    {tokens : List Token}
    (enough : ∀ inside outside, tokens = inside ++ outside →
      inside.countP (·.kind = .closeParen) ≤ depth + inside.countP (·.kind = .openParen)) :
    nesting depth tokens + tokens.countP (·.kind = .closeParen) =
      depth + tokens.countP (·.kind = .openParen) := by
  induction tokens generalizing depth with
  | nil => rfl
  | cons token rest inductionHypothesis =>
      have first := enough [token] rest rfl
      have later : ∀ inside outside, rest = inside ++ outside →
          inside.countP (·.kind = .closeParen) ≤
            token.kind.depthAfter depth + inside.countP (·.kind = .openParen) := by
        rintro inside outside rfl
        have whole := enough (token :: inside) outside rfl
        rw [List.countP_cons, List.countP_cons] at whole
        cases kind : token.kind <;> simp_all [TokenKind.depthAfter] <;> omega
      have counted := inductionHypothesis later
      change nesting (token.kind.depthAfter depth) rest + _ = _
      rw [List.countP_cons, List.countP_cons]
      clear later inductionHypothesis enough
      cases kind : token.kind <;> simp [kind, TokenKind.depthAfter] at * <;> omega

theorem nesting_append (depth : Nat) (front back : List Token) :
    nesting depth (front ++ back) = nesting (nesting depth front) back :=
  List.foldl_append

/-- Where the nesting is zero every parenthesis has been closed. -/
theorem parensClosed_of_nesting
    {tokens : List Token}
    (level : nesting 0 tokens = 0) :
    Token.ParensClosed tokens := by
  rintro front paren back rfl isOpen
  refine Classical.byContradiction fun noEnd => ?_
  -- Otherwise the nesting behind the parenthesis never falls back to what it was before.
  have enough : ∀ inside outside, back = inside ++ outside →
      inside.countP (·.kind = .closeParen) ≤
        nesting 0 front + 1 + inside.countP (·.kind = .openParen) := by
    intro inside outside split
    have fewer : inside.countP (·.kind = .closeParen) ≤ inside.countP (·.kind = .openParen) :=
      Nat.le_of_not_lt fun more => noEnd ⟨inside, outside, split, more⟩
    omega
  have counted := nesting_add_countP enough
  have balanced : back.countP (·.kind = .closeParen) ≤ back.countP (·.kind = .openParen) :=
    Nat.le_of_not_lt fun more => noEnd ⟨back, [], (List.append_nil back).symm, more⟩
  have opened : nesting 0 (front ++ paren :: back) = nesting (nesting 0 front + 1) back := by
    rw [nesting_append]
    change nesting (paren.kind.depthAfter _) back = _
    rw [isOpen]
    rfl
  omega

end Parser

namespace Lexer

/-! ## Where tokens stand -/

theorem abut_place
    (offset : Nat)
    {lexemes : List Lexeme}
    (covers : ∀ lexeme ∈ lexemes, Covers lexeme) :
    Token.Abut offset (Lexeme.place offset lexemes)
      (offset + Text.byteSize (lexemes.flatMap Lexeme.text)) := by
  induction lexemes generalizing offset with
  | nil => exact .nil offset
  | cons lexeme rest inductionHypothesis =>
      obtain ⟨first, others, text, -⟩ := covers lexeme List.mem_cons_self
      have wide : 0 < lexeme.text.byteSize :=
        Text.byteSize_pos_of_ne_nil (by rw [text]; exact List.cons_ne_nil first others)
      have behind := inductionHypothesis (offset + lexeme.text.byteSize)
        fun other present => covers other (List.mem_cons_of_mem lexeme present)
      rw [List.flatMap_cons, Text.byteSize_append, ← Nat.add_assoc]
      exact @Token.Abut.cons ⟨lexeme.kind, lexeme.text, offset⟩ _ _
        (Nat.lt_add_of_pos_right wide) behind

/-- A token is cut between characters, and its bytes are its text. -/
theorem cut_of_mem_tokens
    {dialect : Dialect}
    {source : Text}
    {token : Token}
    (present : token ∈ tokens dialect source) :
    source.Boundary token.span.start ∧ source.Boundary token.span.stop ∧
      token.span.slice source = token.text := by
  obtain ⟨before, after, split⟩ := List.append_of_mem present
  have whole := eq_append_of_tokens_eq_append split
  have span : token.span = ⟨(Token.join before).byteSize,
      (Token.join before).byteSize + token.text.byteSize⟩ := by
    unfold Token.span Token.stop
    rw [start_of_tokens_eq_append split]
  rw [span, whole]
  refine ⟨.append _ _, ?_, Span.slice_append _ _ _⟩
  rw [← List.append_assoc, ← Text.byteSize_append]
  exact .append _ _

/-- The bytes of the tokens put together are the text. -/
theorem flatMap_slice_tokens (dialect : Dialect) (source : Text) :
    ((tokens dialect source).flatMap fun token => token.span.slice source) = source := by
  rw [List.flatMap_def, List.map_congr_left fun token present => (cut_of_mem_tokens present).2.2,
    ← List.flatMap_def]
  exact join_tokens dialect source

/-- Words hold the place of a token in a text that is short enough. -/
theorem ofRange_eq_span
    {token : Token}
    {size : Nat}
    (small : size < UInt32.size)
    (start : token.start ≤ size)
    (stop : token.stop ≤ size) :
    Span.ofRange token.start token.stop = token.span := by
  unfold Span.ofRange Token.span
  rw [Nat.mod_eq_of_lt (by omega), Nat.mod_eq_of_lt (by omega)]

/-- A line comment of a text of LESS, outside parentheses, up to the line feed. -/
theorem lineComment_of_tokens_eq_append
    {dialect : Dialect}
    {source : Text}
    {before after : List Token}
    {token : Token}
    (split : tokens dialect source = before ++ token :: after)
    (isComment : token.kind = .lineComment) :
    dialect = .less ∧ Token.ParensClosed before ∧
      (∃ body, token.text = '/' :: '/' :: body) ∧ '\n' ∉ token.text ∧
        ∀ c ∈ (Token.join after).head?, c = '\n' := by
  obtain ⟨first, rest, count, found, text, behind⟩ := exists_classifies split
  rw [isComment] at found
  obtain ⟨noFeed, stops⟩ := found.ends_of_lineComment
  rw [← text] at noFeed
  rw [← behind] at stops
  cases found with | lineComment isLess level =>
  exact ⟨isLess, Parser.parensClosed_of_nesting level, ⟨_, text⟩, noFeed, stops⟩

/-- Tokens tile a text. -/
structure Tiles (dialect : Dialect) (source : Text) : Prop where
  /-- The last token is the end of the text, and no other is. -/
  finish :
    allTokens dialect source = tokens dialect source ++ [endToken source] ∧
      (endToken source).kind = .endOfFile ∧
        (endToken source).span = ⟨source.byteSize, source.byteSize⟩ ∧
          ∀ token ∈ tokens dialect source, token.kind ≠ .endOfFile
  /-- Offsets are words. -/
  words : ∀ token ∈ allTokens dialect source,
    Span.ofRange token.start token.stop = token.span
  /-- The tokens before the end stand side by side from the first byte to the last. -/
  abut : Token.Abut 0 (tokens dialect source) source.byteSize
  boundaries : ∀ token ∈ tokens dialect source,
    source.Boundary token.span.start ∧ source.Boundary token.span.stop
  /-- Their bytes put together are the text. -/
  slices :
    (∀ token ∈ tokens dialect source, token.span.slice source = token.text) ∧
      ((tokens dialect source).flatMap fun token => token.span.slice source) = source
  /-- What does not end is a comment without an end, or a string without one. -/
  invalid : ∀ before token after, tokens dialect source = before ++ token :: after →
    token.kind = .invalid →
      Token.IsOpenComment token.text (Token.join after) ∨
        Token.IsOpenString token.text (Token.join after)
  /-- Line comments are those of LESS, outside parentheses and up to the line feed. -/
  lineComment : ∀ before token after, tokens dialect source = before ++ token :: after →
    token.kind = .lineComment →
      dialect = .less ∧ Token.ParensClosed before ∧
        (∃ body, token.text = '/' :: '/' :: body) ∧ '\n' ∉ token.text ∧
          ∀ c ∈ (Token.join after).head?, c = '\n'

/-- The tokens of a text that is shorter than `2 ^ 32` bytes tile it. -/
theorem tiles
    (dialect : Dialect)
    {source : Text}
    (small : source.byteSize < UInt32.size) :
    Tiles dialect source := by
  have noEnd : ∀ token ∈ tokens dialect source, token.kind ≠ .endOfFile := fun token present =>
    kind_ne_endOfFile_of_mem_lexemes _ (Lexeme.mem_of_mem_place present)
  refine ⟨⟨rfl, rfl, rfl, noEnd⟩, ?_, ?_, ?_, ⟨?_, flatMap_slice_tokens dialect source⟩, ?_, ?_⟩
  · intro token present
    rcases List.mem_append.mp present with inside | isLast
    · obtain ⟨start, stop, -⟩ := cut_of_mem_tokens inside
      exact ofRange_eq_span small start.le_byteSize stop.le_byteSize
    · obtain rfl := List.mem_singleton.mp isLast
      exact ofRange_eq_span small (Nat.le_refl _) (Nat.le_refl _)
  · have abut := abut_place 0 (@covers_of_mem_lexemes dialect 0 source)
    rwa [flatMap_text_lexemes, Nat.zero_add] at abut
  · intro token present
    obtain ⟨start, stop, -⟩ := cut_of_mem_tokens present
    exact ⟨start, stop⟩
  · exact fun token present => (cut_of_mem_tokens present).2.2
  · intro before token after split isInvalid
    obtain ⟨first, rest, count, found, text, behind⟩ := exists_classifies split
    rw [text, behind]
    rw [isInvalid] at found
    exact found.isOpen
  · exact fun before token after => lineComment_of_tokens_eq_append

/-- A text of LESS with a comment up to the end of its line, a web address, and a string
that hides a character of two bytes and then its quote. -/
def slashes : Text :=
  "(//)// é\r\n)\"\\é\\\""

theorem tiles_slashes :
    slashes.byteSize < UInt32.size ∧
      (tokens .less slashes).map (fun token => (token.kind, token.start, token.stop)) =
        [(.openParen, 0, 1), (.slash, 1, 2), (.slash, 2, 3), (.closeParen, 3, 4),
          (.lineComment, 4, 10), (.whitespace, 10, 11), (.closeParen, 11, 12),
          (.invalid, 12, 18)] ∧
      Tiles .less slashes :=
  ⟨by decide +kernel, by decide +kernel, tiles .less (by decide +kernel)⟩

end Lexer
end StyleTypings
