import StyleTypings.Proofs.Stylesheet.Joining

/-!
# Comments as spaces

A text with spaces for its comments is lexed as the text itself, but that each run of
trivia has become one whitespace. The tokens between the runs stay as they are: what
ends in front of a comment ends in front of a space as well.
-/

namespace StyleTypings

/-- The kinds of trivia in CSS. -/
def TokenKind.IsGap (kind : TokenKind) : Prop :=
  kind = .whitespace ∨ kind = .comment

theorem TokenKind.IsGap.isTrivia
    {kind : TokenKind}
    (isGap : kind.IsGap) :
    kind.isTrivia = true := by
  rcases isGap with rfl | rfl <;> rfl

namespace Lexer

/-- The text of a lexeme, with spaces for a comment: as many as the width of its text. -/
def blankComment (width : Text → Nat) (lexeme : Lexeme) : Text :=
  if lexeme.kind = .comment then
    List.replicate (width lexeme.text) ' '
  else
    lexeme.text

/-- A text with spaces for its comments. -/
def blankComments (width : Text → Nat) (text : Text) : Text :=
  (lexemes .css 0 text).flatMap (blankComment width)

/-- Lexemes in which each run of trivia has become one whitespace, with spaces for the
comments of the run. -/
inductive Condenses (width : Text → Nat) : List Lexeme → List Lexeme → Prop
  | nil : Condenses width [] []
  | solid
      {lexeme : Lexeme}
      {rest others : List Lexeme}
      (isSolid : lexeme.kind.isTrivia = false)
      (later : Condenses width rest others) :
      Condenses width (lexeme :: rest) (lexeme :: others)
  | run
      {trivia rest others : List Lexeme}
      (areGaps : ∀ lexeme ∈ trivia, lexeme.kind.IsGap)
      (nonempty : trivia ≠ [])
      (later : Condenses width rest others) :
      Condenses width (trivia ++ rest)
        (⟨.whitespace, trivia.flatMap (blankComment width)⟩ :: others)

/-! ## What ends in front of a comment -/

/-- A text begins as another does, or with a space where the other has a comment. -/
def Fronts (more other : Text) : Prop :=
  other.head? = more.head? ∨ more.head? = some '/' ∧ other.head? = some ' '

/-- What fails a test that spaces fail still does. -/
theorem Fronts.head?_eq_false
    {more other : Text}
    {test : Char → Bool}
    (fronts : Fronts more other)
    (space : test ' ' = false)
    (stops : ∀ c ∈ more.head?, test c = false) :
    ∀ c ∈ other.head?, test c = false := by
  intro c isFirst
  rcases fronts with same | ⟨-, isSpace⟩
  · exact stops c (same ▸ isFirst)
  · rw [isSpace] at isFirst
    exact Option.some.inj isFirst ▸ space

/-- A run that ends at a seam stops at what is behind the seam. -/
theorem countWhile_seam
    {test : Char → Bool}
    {text more : Text}
    (whole : countWhile test (text ++ more) = text.length) :
    countWhile test text = text.length ∧ ∀ c ∈ more.head?, test c = false := by
  have all : countWhile test text = text.length := by
    refine (Nat.lt_or_eq_of_le (countWhile_le test text)).resolve_left fun inside => ?_
    rw [countWhile_append_of_lt inside] at whole
    exact Nat.ne_of_lt inside whole
  refine ⟨all, fun c isFirst => ?_⟩
  rw [countWhile_append_of_eq all] at whole
  obtain ⟨later, rfl⟩ := List.head?_eq_some_iff.mp isFirst
  cases passes : test c with
  | false => rfl
  | true =>
      unfold countWhile at whole
      rw [List.takeWhile_cons, if_pos passes, List.length_cons] at whole
      omega

theorem Fronts.countWhile_eq
    {test : Char → Bool}
    {text more other : Text}
    (fronts : Fronts more other)
    (space : test ' ' = false)
    (whole : countWhile test (text ++ more) = text.length) :
    countWhile test (text ++ other) = text.length := by
  obtain ⟨all, stops⟩ := countWhile_seam whole
  rw [countWhile_append_of_eq all, countWhile_of_head? (fronts.head?_eq_false space stops),
    Nat.add_zero]

/-- A string stops at once at the end of a text or before a line feed. -/
theorem stringEnd_eq_zero_iff {quote : Char} {text : Text} :
    stringEnd quote text = (0, false) ↔ ∀ c ∈ text.head?, c = '\n' := by
  fun_induction stringEnd quote text with
  | case1 => simp
  | case2 => simp
  | case3 => simp
  | case4 => simp
  | case5 rest _ _ noFeed => simpa using noFeed
  | case6 c rest _ _ noFeed => simpa using noFeed

/-- A string that stops at a seam without being closed stops there as well if something
else is behind it. -/
theorem Fronts.stringEnd_eq
    {quote : Char}
    {text more other : Text}
    (fronts : Fronts more other)
    (isOpen : stringEnd quote (text ++ more) = (text.length, false)) :
    stringEnd quote (text ++ other) = (text.length, false) := by
  fun_induction stringEnd quote text with
  | case1 =>
      rw [List.nil_append] at isOpen ⊢
      have stops := stringEnd_eq_zero_iff.mp isOpen
      refine stringEnd_eq_zero_iff.mpr ?_
      rcases fronts with same | ⟨isSlash, -⟩
      · rwa [same]
      · exact absurd (stops '/' isSlash) (by decide)
  | case2 =>
      have nothing : more = [] := by
        cases more with
        | nil => rfl
        | cons c rest =>
            have reached := congrArg Prod.fst isOpen
            exact absurd (Nat.succ.inj reached) (Nat.succ_ne_zero _)
      subst nothing
      rcases fronts with same | ⟨isSlash, -⟩
      · rwa [List.head?_eq_none_iff.mp same]
      · exact absurd isSlash.symm (Option.some_ne_none '/')
  | case3 c rest reached inductionHypothesis =>
      rw [List.cons_append, List.cons_append, stringEnd] at isOpen ⊢
      obtain ⟨reaches, noQuoteBehind⟩ := Prod.mk.inj isOpen
      rw [inductionHypothesis (Prod.ext (Nat.add_right_cancel reaches) noQuoteBehind)]
      rfl
  | case4 rest noEnd noEscape =>
      rw [List.cons_append, stringEnd_cons (ne_backslash noEnd noEscape), if_pos rfl] at isOpen
      exact absurd (congrArg Prod.fst isOpen) (Nat.succ_ne_zero _).symm
  | case5 rest noEnd noEscape noFeed =>
      rw [List.cons_append, stringEnd_cons (ne_backslash noEnd noEscape), if_neg noFeed,
        if_pos rfl] at isOpen
      exact absurd (congrArg Prod.snd isOpen).symm Bool.false_ne_true
  | case6 c rest noEnd noEscape noFeed noQuote reached inductionHypothesis =>
      rw [List.cons_append, stringEnd_cons (ne_backslash noEnd noEscape), if_neg noFeed,
        if_neg noQuote] at isOpen ⊢
      obtain ⟨reaches, noQuoteBehind⟩ := Prod.mk.inj isOpen
      rw [inductionHypothesis (Prod.ext (Nat.add_right_cancel reaches) noQuoteBehind)]
      rfl

/-- A string that ends at a seam, closed or not, ends there if something else is behind
the seam. -/
theorem Fronts.stringEnd_append_eq
    {quote : Char}
    {text more other : Text}
    (fronts : Fronts more other)
    (reached : (stringEnd quote (text ++ more)).1 = text.length) :
    stringEnd quote (text ++ other) = stringEnd quote (text ++ more) := by
  cases closed : (stringEnd quote (text ++ more)).2 with
  | true =>
      have inside := stringEnd_take quote (text ++ more) text.length (Nat.le_of_eq reached)
      rw [List.take_left] at inside
      rw [← inside] at closed ⊢
      exact stringEnd_append (.inr closed) other
  | false =>
      have isOpen : stringEnd quote (text ++ more) = (text.length, false) :=
        Prod.ext reached closed
      rw [fronts.stringEnd_eq isOpen, isOpen]

/-! ## What ends at a seam -/

section

variable {text more other : Text} (fronts : Fronts more other)
include fronts

theorem Fronts.classify_slash_eq
    (whole : (classify .css 0 '/' (text ++ more)).2 = text.length)
    (isSolid : (classify .css 0 '/' (text ++ more)).1.isTrivia = false) :
    classify .css 0 '/' (text ++ other) = classify .css 0 '/' (text ++ more) := by
  by_cases star : (text ++ more).head? = some '*'
  · obtain ⟨body, split⟩ := List.head?_eq_some_iff.mp star
    cases found : commentEnd? body with
    | some count =>
        rw [split, classify_comment found] at isSolid
        exact absurd isSolid.symm Bool.false_ne_true
    | none =>
        -- A comment without an end has nothing behind it.
        have nothing : more = [] := by
          rw [split, classify_unclosed found] at whole
          have lengths := congrArg List.length split
          rw [List.length_append, List.length_cons] at lengths
          exact List.eq_nil_of_length_eq_zero (by omega)
        subst nothing
        rcases fronts with same | ⟨isSlash, -⟩
        · rw [List.head?_eq_none_iff.mp same]
        · exact absurd isSlash.symm (Option.some_ne_none '/')
  · have nothing : text = [] := by
      rw [classify_slash star] at whole
      exact List.eq_nil_of_length_eq_zero whole.symm
    subst nothing
    have noStar : other.head? ≠ some '*' := by
      rcases fronts with same | ⟨-, isSpace⟩
      · exact same ▸ star
      · exact isSpace ▸ by decide
    rw [List.nil_append, classify_slash noStar, classify_slash star]

theorem Fronts.classify_at_eq
    (whole : (classify .css 0 '@' (text ++ more)).2 = text.length) :
    classify .css 0 '@' (text ++ other) = classify .css 0 '@' (text ++ more) := by
  cases starts : (text ++ more).head?.any startsKeyword with
  | true =>
      have reached : countWhile continuesKeyword (text ++ more) = text.length := by
        rwa [classify_keyword starts] at whole
      cases text with
      | nil =>
          have some := one_le_countWhile_continuesKeyword starts
          rw [reached] at some
          exact absurd some (Nat.not_succ_le_zero 0)
      | cons second others =>
          have startsToo : (second :: others ++ other).head?.any startsKeyword = true := starts
          rw [classify_keyword starts, classify_keyword startsToo, reached,
            fronts.countWhile_eq (by decide) reached]
  | false =>
      have nothing : text = [] := by
        rw [classify_atSign starts] at whole
        exact List.eq_nil_of_length_eq_zero whole.symm
      subst nothing
      have noStart : other.head?.any startsKeyword = false := by
        simp only [List.nil_append, Option.any_eq_false] at starts ⊢
        exact fronts.head?_eq_false (by decide) starts
      rw [List.nil_append, classify_atSign noStart, classify_atSign starts]

/-- A lexeme that is no trivia and ends at a seam is the same if something else is behind
the seam. -/
theorem Fronts.classify_eq
    {first : Char}
    (whole : (classify .css 0 first (text ++ more)).2 = text.length)
    (isSolid : (classify .css 0 first (text ++ more)).1.isTrivia = false) :
    classify .css 0 first (text ++ other) = classify .css 0 first (text ++ more) := by
  cases finds first with
  | single kind classified => rw [classified, classified]
  | slash isSlash =>
      subst isSlash
      exact fronts.classify_slash_eq whole isSolid
  | atSign isAtSign =>
      subst isAtSign
      exact fronts.classify_at_eq whole
  | quoted classified =>
      rw [classified] at whole
      rw [classified, classified, fronts.stringEnd_append_eq whole]
  | space _ classified =>
      rw [classified] at isSolid
      exact absurd isSolid.symm Bool.false_ne_true
  | plain classified =>
      have reached : countWhile (fun c => !isSpecial c) (text ++ more) = text.length := by
        rwa [classified] at whole
      rw [classified, classified, reached, fronts.countWhile_eq (by decide) reached]

end

/-! ## Blanking comments out -/

theorem isGap_of_classify
    {first : Char}
    {rest : Text}
    (isTrivia : (classify .css 0 first rest).1.isTrivia = true) :
    (classify .css 0 first rest).1.IsGap := by
  generalize classified : classify .css 0 first rest = lexed at isTrivia ⊢
  cases classifies_iff.mpr classified with
  | whitespace => exact .inl rfl
  | comment => exact .inr rfl
  | lineComment isLess => exact absurd isLess nofun
  | _ => exact absurd isTrivia nofun

theorem two_le_of_commentEnd?
    {text : Text}
    {count : Nat}
    (found : commentEnd? text = some count) :
    2 ≤ count := by
  fun_induction commentEnd? text generalizing count with
  | case1 => exact absurd found.symm (Option.some_ne_none count)
  | case2 rest => exact Nat.le_of_eq (Option.some.inj found)
  | case3 c rest noEnd inductionHypothesis =>
      obtain ⟨less, later, rfl⟩ := Option.map_eq_some_iff.mp found
      exact Nat.le_succ_of_le (inductionHypothesis later)

variable {width : Text → Nat}

@[simp] theorem blankComments_nil : blankComments width [] = [] := by
  unfold blankComments
  rw [lexemes]
  rfl

theorem blankComments_cons (first : Char) (rest : Text) :
    blankComments width (first :: rest) =
      blankComment width ⟨(classify .css 0 first rest).1,
          first :: rest.take (classify .css 0 first rest).2⟩ ++
        blankComments width (rest.drop (classify .css 0 first rest).2) := by
  unfold blankComments
  rw [lexemes_cons, List.flatMap_cons]

theorem blankComment_of_ne
    {lexeme : Lexeme}
    (noComment : lexeme.kind ≠ .comment) :
    blankComment width lexeme = lexeme.text :=
  if_neg noComment

/-- A lexeme that ends at a seam, and those behind it. -/
theorem lexemes_cons_append
    {first : Char}
    {text more : Text}
    (whole : (classify .css 0 first (text ++ more)).2 = text.length) :
    lexemes .css 0 (first :: (text ++ more)) =
      ⟨(classify .css 0 first (text ++ more)).1, first :: text⟩ :: lexemes .css 0 more := by
  rw [lexemes_cons, whole, List.take_left, List.drop_left]

theorem joins_lexemes_of_spaces
    {space : Char}
    {spaces : Text}
    (areSpaces : ∀ c ∈ space :: spaces, isSpace c = true)
    (text : Text) :
    Joins [⟨.whitespace, space :: spaces⟩] (lexemes .css 0 text)
      (lexemes .css 0 (space :: (spaces ++ text))) := by
  have first := classify_of_isSpace (areSpaces space List.mem_cons_self) .css 0 spaces
  have all : countWhile isSpace spaces = spaces.length :=
    countWhile_of_forall fun c present => areSpaces c (List.mem_cons_of_mem space present)
  exact joins_lexemes_of_whitespace (by rw [first]) (by rw [first, all]) text

/-- A run of trivia takes in a lexeme more. -/
theorem Condenses.of_joins
    {lexeme : Lexeme}
    {rest others whole : List Lexeme}
    (condenses : Condenses width rest others)
    (isGap : lexeme.kind.IsGap)
    (joins : Joins [⟨.whitespace, blankComment width lexeme⟩] others whole) :
    Condenses width (lexeme :: rest) whole := by
  generalize isFront : ([⟨.whitespace, blankComment width lexeme⟩] : List Lexeme) = left at joins
  cases joins with
  | apart =>
      subst isFront
      have run := @Condenses.run width [lexeme] rest others (by simpa using isGap)
        (List.cons_ne_nil lexeme []) condenses
      rwa [List.flatMap_singleton] at run
  | merged front back left right =>
      obtain ⟨rfl, isLeft⟩ := @List.append_inj' _ [] _ front _ isFront rfl
      obtain ⟨-, rfl⟩ := Lexeme.mk.inj (List.cons.inj isLeft).1
      cases condenses with
      | solid isSolid => exact absurd isSolid nofun
      | @run trivia rest _ areGaps _ later =>
          have run := @Condenses.run width (lexeme :: trivia) rest back
            (List.forall_mem_cons.mpr ⟨isGap, areGaps⟩) (List.cons_ne_nil lexeme trivia) later
          rwa [List.flatMap_cons] at run

section

/- Every character of a comment becomes at least one space. -/
variable (wide : ∀ text, text.length ≤ width text)
include wide

/-- A comment begins with a slash and becomes two spaces at least. -/
theorem exists_gap {depth : Nat} {text : Text} :
    ∀ lexeme ∈ lexemes .css depth text, lexeme.kind = .comment →
      ∃ body count, lexeme.text = '/' :: body ∧
        blankComment width lexeme = List.replicate (count + 2) ' ' := by
  refine forall_mem_lexemes fun found isComment => ?_
  cases found with
  | @comment body count found =>
      have long := two_le_of_commentEnd? found
      have inside := Nat.succ_le_succ (commentEnd?_le found)
      have spaces := wide ('/' :: List.take (count + 1) ('*' :: body))
      rw [List.length_cons, List.length_take_of_le inside] at spaces
      have two : 2 ≤ width ('/' :: List.take (count + 1) ('*' :: body)) := by omega
      obtain ⟨more, isMore⟩ := Nat.exists_eq_add_of_le' two
      refine ⟨_, more, rfl, ?_⟩
      unfold blankComment
      rw [if_pos isComment, isMore]
  | _ => exact absurd isComment nofun

theorem exists_gap_cons
    {first : Char}
    {rest : Text}
    (isComment : (classify .css 0 first rest).1 = .comment) :
    ∃ count, first = '/' ∧ blankComment width ⟨(classify .css 0 first rest).1,
      first :: rest.take (classify .css 0 first rest).2⟩ = List.replicate (count + 2) ' ' := by
  have present := lexemes_cons first rest ▸ List.mem_cons_self
  obtain ⟨body, count, isText, spaces⟩ := exists_gap wide _ present isComment
  exact ⟨count, (List.cons.inj isText).1, spaces⟩

theorem fronts_blankComments (text : Text) : Fronts text (blankComments width text) := by
  cases text with
  | nil =>
      rw [blankComments_nil]
      exact .inl rfl
  | cons first rest =>
      rw [blankComments_cons]
      by_cases isComment : (classify .css 0 first rest).1 = .comment
      · obtain ⟨count, rfl, spaces⟩ := exists_gap_cons wide isComment
        rw [spaces]
        exact .inr ⟨rfl, rfl⟩
      · rw [blankComment_of_ne isComment]
        exact .inl rfl

/-- Trivia become spaces. -/
theorem blankComment_trivia
    {first : Char}
    {rest : Text}
    (isGap : (classify .css 0 first rest).1.IsGap) :
    ∃ space spaces, blankComment width ⟨(classify .css 0 first rest).1,
        first :: rest.take (classify .css 0 first rest).2⟩ = space :: spaces ∧
      ∀ c ∈ space :: spaces, isSpace c = true := by
  by_cases isComment : (classify .css 0 first rest).1 = .comment
  · obtain ⟨count, -, blank⟩ := exists_gap_cons wide isComment
    refine ⟨' ', List.replicate (count + 1) ' ', blank, fun c present => ?_⟩
    rw [← List.replicate_succ] at present
    exact List.eq_of_mem_replicate present ▸ rfl
  · have space := isSpace_of_classify (isGap.resolve_right isComment)
    rw [blankComment_of_ne isComment]
    refine ⟨first, _, rfl, fun c present => ?_⟩
    rcases List.mem_cons.mp present with rfl | later
    · exact space
    · rw [classify_of_isSpace space] at later
      exact test_of_mem_take_countWhile later

/-- A text with spaces for its comments is lexed as the text is, but that runs of trivia
become whitespace. -/
theorem condenses_lexemes (text : Text) :
    Condenses width (lexemes .css 0 text) (lexemes .css 0 (blankComments width text)) := by
  induction length : text.length using Nat.strongRecOn generalizing text with
  | _ size inductionHypothesis =>
  subst length
  cases text with
  | nil =>
      rw [blankComments_nil, lexemes]
      exact .nil
  | cons first rest =>
      have later := inductionHypothesis _ (by rw [List.length_drop, List.length_cons]; omega)
        (rest.drop (classify .css 0 first rest).2) rfl
      rw [lexemes_cons, blankComments_cons]
      cases isTrivia : (classify .css 0 first rest).1.isTrivia with
      | true =>
          have isGap := isGap_of_classify isTrivia
          obtain ⟨space, spaces, blank, areSpaces⟩ := blankComment_trivia wide isGap
          have joins := joins_lexemes_of_spaces areSpaces
            (blankComments width (rest.drop (classify .css 0 first rest).2))
          rw [blank, List.cons_append]
          rw [← blank] at joins
          exact later.of_joins isGap joins
      | false =>
          have inside := classify_le .css 0 first rest
          have whole := List.take_append_drop (classify .css 0 first rest).2 rest
          have same := (fronts_blankComments wide
            (rest.drop (classify .css 0 first rest).2)).classify_eq
            (by rw [whole, List.length_take_of_le inside]) (by rw [whole]; exact isTrivia)
          rw [whole] at same
          have noComment : (classify .css 0 first rest).1 ≠ .comment := by
            intro isComment
            rw [isComment] at isTrivia
            exact absurd isTrivia.symm Bool.false_ne_true
          rw [blankComment_of_ne noComment, List.cons_append, lexemes_cons_append, same]
          · exact .solid isTrivia later
          · rw [same, List.length_take_of_le inside]

end

end Lexer
end StyleTypings
