import StyleTypings.Proofs.Stylesheet.Scanning

/-!
# How far lexemes reach

A lexeme of CSS depends neither on the nesting of parentheses nor on what stands
behind it, as long as that cannot continue it. Nothing can continue a comment, a
semicolon or a closing brace, and a space continues whitespace only.
-/

namespace StyleTypings

namespace TokenKind

/-- Whether nothing that follows a token of a kind can be part of it. -/
def isClosed : TokenKind → Bool
  | .comment | .semicolon | .closeBrace => true
  | _ => false

end TokenKind

namespace Lexer

/-- A lexeme reaches no further than its text. -/
theorem classify_le
    (dialect : Dialect)
    (depth : Nat)
    (first : Char)
    (rest : Text) :
    (classify dialect depth first rest).2 ≤ rest.length := by
  generalize classified : classify dialect depth first rest = lexed
  cases classifies_iff.mpr classified with
  | comment found => exact Nat.succ_le_succ (commentEnd?_le found)
  | openComment => exact Nat.le_refl _
  | closedString | openString => exact stringEnd_le _ _
  | lineComment | atKeyword | whitespace | text => exact countWhile_le _ _
  | _ => exact Nat.zero_le _

/-- How the lexeme of CSS that begins with a character is found. -/
inductive Finds (first : Char) : Prop
  /-- The character is a lexeme by itself. -/
  | single
      (kind : TokenKind)
      (classified : ∀ depth rest, classify .css depth first rest = (kind, 0))
      (solid : kind ≠ .whitespace)
  /-- A comment or a slash. -/
  | slash (isSlash : first = '/')
  /-- An at-keyword or an at sign. -/
  | atSign (isAtSign : first = '@')
  /-- A string, closed or not. -/
  | quoted
      (classified : ∀ depth rest, classify .css depth first rest =
        (if (stringEnd first rest).2 then .string else .invalid, (stringEnd first rest).1))
  /-- Spaces. -/
  | space
      (isSpace : isSpace first = true)
      (classified : ∀ depth rest, classify .css depth first rest =
        (.whitespace, countWhile Lexer.isSpace rest))
  /-- Plain text. -/
  | plain
      (classified : ∀ depth rest, classify .css depth first rest =
        (.text, countWhile (fun c => !isSpecial c) rest))

theorem finds (first : Char) : Finds first := by
  generalize classified : classify .css 0 first [] = lexed
  cases classifies_iff.mpr classified with
  | slash => exact .slash rfl
  | atKeyword | atSign => exact .atSign rfl
  | closedString isQuote | openString isQuote =>
      exact .quoted fun _ _ => classify_of_isQuote isQuote
  | whitespace space => exact .space space (classify_of_isSpace space .css)
  | text plain => exact .plain fun _ _ => classify_of_plain plain
  | _ => exact .single _ (fun _ _ => rfl) nofun

/-- But for line comments, the dialects and the nesting make no difference. -/
theorem classify_eq_css
    {dialect : Dialect}
    {depth : Nat}
    {first : Char}
    {rest : Text}
    (noComment : (classify dialect depth first rest).1 ≠ .lineComment) :
    classify dialect depth first rest = classify .css 0 first rest := by
  generalize classified : classify dialect depth first rest = lexed at noComment ⊢
  refine (classifies_iff.mp ?_).symm
  cases classifies_iff.mpr classified with
  | lineComment => exact absurd rfl noComment
  | slash noStar => exact .slash noStar nofun
  | _ => constructor <;> assumption

/-- In CSS the nesting of parentheses does not matter. -/
theorem classify_css (depth : Nat) (first : Char) (rest : Text) :
    classify .css depth first rest = classify .css 0 first rest :=
  classify_eq_css fun isComment => absurd (classify_lineComment isComment).1 nofun

theorem classify_slash
    {rest : Text}
    (noStar : rest.head? ≠ some '*')
    (depth : Nat) :
    classify .css depth '/' rest = (.slash, 0) :=
  classifies_iff.mp (.slash noStar nofun)

theorem classify_comment
    {body : Text}
    {count : Nat}
    (found : commentEnd? body = some count)
    (depth : Nat) :
    classify .css depth '/' ('*' :: body) = (.comment, count + 1) :=
  classifies_iff.mp (.comment found)

theorem classify_unclosed
    {body : Text}
    (absent : commentEnd? body = none)
    (depth : Nat) :
    classify .css depth '/' ('*' :: body) = (.invalid, body.length + 1) :=
  classifies_iff.mp (.openComment absent)

theorem classify_keyword
    {rest : Text}
    (starts : rest.head?.any startsKeyword = true)
    (depth : Nat) :
    classify .css depth '@' rest = (.atKeyword, countWhile continuesKeyword rest) :=
  classifies_iff.mp (.atKeyword starts)

theorem classify_atSign
    {rest : Text}
    (noStart : rest.head?.any startsKeyword = false)
    (depth : Nat) :
    classify .css depth '@' rest = (.atSign, 0) :=
  classifies_iff.mp (.atSign noStart)

/-- What begins the word of an at-keyword continues it. -/
theorem one_le_countWhile_continuesKeyword
    {rest : Text}
    (starts : rest.head?.any startsKeyword = true) :
    1 ≤ countWhile continuesKeyword rest := by
  cases rest with
  | nil => exact absurd starts nofun
  | cons second others =>
      have continues : continuesKeyword second = true := by
        unfold continuesKeyword
        rw [show startsKeyword second = true from starts, Bool.true_or]
      unfold countWhile
      rw [List.takeWhile_cons, if_pos continues]
      exact Nat.succ_le_succ (Nat.zero_le _)

theorem continuesKeyword_of_isSpace
    {c : Char}
    (space : isSpace c = true) :
    continuesKeyword c = false := by
  simp only [isSpace, Bool.or_eq_true, beq_iff_eq] at space
  rcases space with (((rfl | rfl) | rfl) | rfl) | rfl <;> decide

/-- A lexeme is the same in as much of a text as it takes in. -/
theorem classify_take
    {first : Char}
    {rest : Text}
    {limit : Nat}
    (enough : (classify .css 0 first rest).2 ≤ limit) :
    classify .css 0 first (rest.take limit) = classify .css 0 first rest := by
  cases finds first with
  | single kind classified _ => rw [classified, classified]
  | slash isSlash =>
      subst isSlash
      by_cases star : rest.head? = some '*'
      · obtain ⟨body, rfl⟩ := List.head?_eq_some_iff.mp star
        cases found : commentEnd? body with
        | none =>
            rw [classify_unclosed found] at enough
            rw [List.take_of_length_le enough]
        | some count =>
            rw [classify_comment found] at enough ⊢
            have positive : 1 ≤ limit := Nat.le_trans (Nat.le_add_left 1 _) enough
            obtain ⟨less, rfl⟩ := Nat.exists_eq_add_of_le' positive
            rw [List.take_succ_cons]
            exact classify_comment
              (commentEnd?_take found (Nat.le_of_add_le_add_right enough)) 0
      · have noStar : (rest.take limit).head? ≠ some '*' := by
          rw [List.head?_take]
          split
          · exact nofun
          · exact star
        rw [classify_slash star, classify_slash noStar]
  | atSign isAtSign =>
      subst isAtSign
      cases starts : rest.head?.any startsKeyword with
      | true =>
          rw [classify_keyword starts] at enough ⊢
          have positive := Nat.le_trans (one_le_countWhile_continuesKeyword starts) enough
          have startsToo : (rest.take limit).head?.any startsKeyword = true := by
            rwa [List.head?_take, if_neg (Nat.ne_of_gt positive)]
          rw [classify_keyword startsToo, countWhile_take, Nat.min_eq_right enough]
      | false =>
          have noStart : (rest.take limit).head?.any startsKeyword = false := by
            rw [List.head?_take]
            split
            · rfl
            · exact starts
          rw [classify_atSign starts, classify_atSign noStart]
  | quoted classified =>
      rw [classified] at enough
      rw [classified, classified, stringEnd_take first rest limit enough]
  | space _ classified =>
      rw [classified] at enough
      rw [classified, classified, countWhile_take, Nat.min_eq_right enough]
  | plain classified =>
      rw [classified] at enough
      rw [classified, classified, countWhile_take, Nat.min_eq_right enough]

/-- What follows a lexeme cannot be part of it: the lexeme is closed, or it ends and
what follows begins with a space. -/
def Parts (kind : TokenKind) (more : Text) : Prop :=
  kind.isClosed = true ∨
    kind ≠ .whitespace ∧ kind ≠ .invalid ∧ ∀ c ∈ more.head?, isSpace c = true

/-- A lexeme that is not closed ends, and a space follows. -/
theorem Parts.of_open
    {kind : TokenKind}
    {more : Text}
    (parts : Parts kind more)
    (isOpen : kind.isClosed = false) :
    kind ≠ .whitespace ∧ kind ≠ .invalid ∧ ∀ c ∈ more.head?, isSpace c = true := by
  refine parts.resolve_left fun closed => ?_
  rw [isOpen] at closed
  exact absurd closed nofun

/-- What is behind a lexeme that is not closed fails each test at first that spaces fail. -/
theorem Parts.head?_eq_false
    {kind : TokenKind}
    {more : Text}
    {test : Char → Bool}
    (parts : Parts kind more)
    (isOpen : kind.isClosed = false)
    (solid : ∀ c, isSpace c = true → test c = false) :
    ∀ c ∈ more.head?, test c = false :=
  fun c isFirst => solid c ((parts.of_open isOpen).2.2 c isFirst)

theorem classify_slash_append
    {rest more : Text}
    (ends : (classify .css 0 '/' rest).2 < rest.length ∨
      Parts (classify .css 0 '/' rest).1 more) :
    classify .css 0 '/' (rest ++ more) = classify .css 0 '/' rest := by
  cases rest with
  | nil =>
      have nothing : ([] : Text).head? ≠ some '*' := by simp
      rw [classify_slash nothing] at ends
      have parts := ends.resolve_left (Nat.lt_irrefl _)
      have noStar : more.head? ≠ some '*' := fun star =>
        absurd ((parts.of_open rfl).2.2 '*' star) (by decide)
      rw [List.nil_append, classify_slash noStar, classify_slash nothing]
  | cons second body =>
      by_cases star : second = '*'
      · subst star
        cases found : commentEnd? body with
        | none =>
            rw [classify_unclosed found] at ends
            exact absurd rfl ((ends.resolve_left (Nat.lt_irrefl _)).of_open rfl).2.1
        | some count =>
            rw [classify_comment found, List.cons_append]
            exact classify_comment (commentEnd?_append found more) 0
      · have noStar (others : Text) : (second :: others).head? ≠ some '*' :=
          fun same => star (Option.some.inj same)
        rw [List.cons_append, classify_slash (noStar _), classify_slash (noStar _)]

theorem classify_at_append
    {rest more : Text}
    (ends : (classify .css 0 '@' rest).2 < rest.length ∨
      Parts (classify .css 0 '@' rest).1 more) :
    classify .css 0 '@' (rest ++ more) = classify .css 0 '@' rest := by
  cases starts : rest.head?.any startsKeyword with
  | true =>
      have startsToo : (rest ++ more).head?.any startsKeyword = true := by
        cases rest with
        | nil => exact absurd starts nofun
        | cons second others => exact starts
      rw [classify_keyword starts] at ends ⊢
      rw [classify_keyword startsToo, countWhile_append]
      exact ends.imp_right fun parts =>
        parts.head?_eq_false rfl fun c => continuesKeyword_of_isSpace
  | false =>
      have noStart : (rest ++ more).head?.any startsKeyword = false := by
        cases rest with
        | cons second others => exact starts
        | nil =>
            rw [classify_atSign starts] at ends
            have parts := ends.resolve_left (Nat.lt_irrefl _)
            rw [List.nil_append, Option.any_eq_false]
            intro c isFirst
            have noWord := parts.head?_eq_false rfl (fun c => continuesKeyword_of_isSpace) c isFirst
            unfold continuesKeyword at noWord
            simpa using (Bool.or_eq_false_iff.mp noWord).1
      rw [classify_atSign starts, classify_atSign noStart]

/-- A lexeme that ends inside a text, or is parted from what follows, is the same
with it. -/
theorem classify_append
    {first : Char}
    {rest more : Text}
    (ends : (classify .css 0 first rest).2 < rest.length ∨
      Parts (classify .css 0 first rest).1 more) :
    classify .css 0 first (rest ++ more) = classify .css 0 first rest := by
  cases finds first with
  | single kind classified _ => rw [classified, classified]
  | slash isSlash =>
      subst isSlash
      exact classify_slash_append ends
  | atSign isAtSign =>
      subst isAtSign
      exact classify_at_append ends
  | quoted classified =>
      rw [classified] at ends
      rw [classified, classified, stringEnd_append]
      refine ends.imp_right fun parts => ?_
      cases closed : (stringEnd first rest).2 with
      | true => rfl
      | false =>
          rw [closed] at parts
          exact absurd rfl (parts.of_open rfl).2.1
  | space _ classified =>
      rw [classified] at ends
      rw [classified, classified, countWhile_append]
      exact ends.imp_right fun parts => absurd rfl (parts.of_open rfl).1
  | plain classified =>
      rw [classified] at ends
      rw [classified, classified, countWhile_append]
      exact ends.imp_right fun parts =>
        parts.head?_eq_false rfl fun c space => by simp [isSpecial, space]

/-- Only spaces begin whitespace. -/
theorem isSpace_of_classify
    {first : Char}
    {rest : Text}
    (isWhitespace : (classify .css 0 first rest).1 = .whitespace) :
    isSpace first = true := by
  generalize classified : classify .css 0 first rest = lexed at isWhitespace
  cases classifies_iff.mpr classified with
  | whitespace space => exact space
  | _ => exact absurd isWhitespace nofun

/-- Whitespace takes in the spaces of what follows. -/
theorem classify_append_of_whitespace
    {first : Char}
    {rest : Text}
    (isWhitespace : (classify .css 0 first rest).1 = .whitespace)
    (whole : (classify .css 0 first rest).2 = rest.length)
    (more : Text) :
    classify .css 0 first (rest ++ more) =
      (.whitespace, rest.length + countWhile Lexer.isSpace more) := by
  have space := isSpace_of_classify isWhitespace
  rw [classify_of_isSpace space] at whole
  rw [classify_of_isSpace space, countWhile_append_of_eq whole]

end Lexer
end StyleTypings
