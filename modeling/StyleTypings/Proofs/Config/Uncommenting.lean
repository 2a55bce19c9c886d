import Mathlib.Data.List.Basic
import StyleTypings.Config.Comments

/-!
# What is left without comments

A text with comments is made of string literals, comments and other text between them. Without its
comments the literals and the other text are left as they are, and so are the ends of the lines on
which a comment stands. Whatever the text, what is left of it has no comments: a slash is only left
before a character that opens no comment, and that character is left behind it.
-/

namespace StyleTypings
namespace Comments

/-! ## Texts with comments -/

/-- A character of a string literal as it is, or any character behind a backslash. -/
inductive LiteralPart
  | plain (c : Char) (isPlain : c ≠ '"' ∧ c ≠ '\\')
  | escape (c : Char)

/-- How a part of a literal is written. -/
def LiteralPart.text : LiteralPart → Text
  | .plain c _ => [c]
  | .escape c => ['\\', c]

/-- A piece of a text with comments. A comment up to the end of a line includes the line feed. -/
inductive Piece
  | literal (parts : List LiteralPart)
  | other (text : Text) (isOther : '"' ∉ text ∧ '/' ∉ text)
  | block (body : Text) (isOpen : ¬ "*/".toList <:+: body)
  | line (body : Text) (isLine : '\n' ∉ body)

namespace Piece

/-- How a piece is written. -/
def text : Piece → Text
  | .literal parts => '"' :: parts.flatMap LiteralPart.text ++ ['"']
  | .other text _ => text
  | .block body _ => "/*".toList ++ body ++ "*/".toList
  | .line body _ => "//".toList ++ body ++ ['\n']

/-- What is left of a piece without comments. -/
def rest : Piece → Text
  | .block _ _ => []
  | .line _ _ => ['\n']
  | piece => piece.text

end Piece

/-- A text made of pieces, and perhaps a comment up to its end. -/
structure Commented where
  pieces : List Piece
  last : Option { body : Text // '\n' ∉ body }

/-- How a text with comments is written. -/
def Commented.text (source : Commented) : Text :=
  source.pieces.flatMap Piece.text ++ (source.last.map fun body => "//".toList ++ body.1).getD []

/-! ## Pieces -/

theorem removeFrom_parts (parts : List LiteralPart) (after : Text) :
    removeFrom .inString (parts.flatMap LiteralPart.text ++ '"' :: after) =
      parts.flatMap LiteralPart.text ++ '"' :: removeFrom .outside after := by
  induction parts with
  | nil => simp [removeFrom]
  | cons part rest inductionHypothesis =>
      rw [List.flatMap_cons, List.append_assoc, List.append_assoc]
      cases part with
      | plain c isPlain =>
          simp [LiteralPart.text, removeFrom, isPlain.1, isPlain.2, inductionHypothesis]
      | escape c => simp [LiteralPart.text, removeFrom, inductionHypothesis]

/-- A character and the text behind it open a comment. -/
def OpensComment (c : Char) (after : Text) : Prop :=
  c = '/' ∧ (after.head? = some '/' ∨ after.head? = some '*')

/-- Outside of comments and strings a character that opens no comment is left. -/
theorem removeFrom_outside
    {c : Char}
    {after : Text}
    (opensNone : ¬ OpensComment c after) :
    removeFrom .outside (c :: after) =
      c :: removeFrom (if c = '"' then .inString else .outside) after := by
  rw [removeFrom]
  · rintro tail rfl rfl
    exact opensNone ⟨rfl, .inl rfl⟩
  · rintro tail rfl rfl
    exact opensNone ⟨rfl, .inr rfl⟩

theorem removeFrom_other {text : Text} (isOther : '"' ∉ text ∧ '/' ∉ text) (after : Text) :
    removeFrom .outside (text ++ after) = text ++ removeFrom .outside after := by
  induction text with
  | nil => rfl
  | cons c rest inductionHypothesis =>
      simp only [List.mem_cons, not_or] at isOther
      obtain ⟨⟨noQuote, quotes⟩, noSlash, slashes⟩ := isOther
      have opensNone : ¬ OpensComment c (rest ++ after) := fun opens => noSlash opens.1.symm
      rw [List.cons_append, removeFrom_outside opensNone, if_neg (Ne.symm noQuote),
        inductionHypothesis ⟨quotes, slashes⟩, List.cons_append]

/-- In a comment nothing is left before the end of the comment. -/
theorem removeFrom_inBlock {body : Text} (isOpen : ¬ "*/".toList <:+: body) (after : Text) :
    removeFrom .inBlock (body ++ '*' :: '/' :: after) = removeFrom .outside after := by
  induction body with
  | nil => rfl
  | cons c rest inductionHypothesis =>
      have isOpenToo : ¬ "*/".toList <:+: rest := fun closes =>
        isOpen (closes.trans (List.suffix_cons c rest).isInfix)
      rw [← inductionHypothesis isOpenToo, List.cons_append]
      -- The body would hold the end of the comment if it began here.
      have goesOn : ∀ tail, c = '*' → rest ++ '*' :: '/' :: after ≠ '/' :: tail := by
        rintro tail rfl same
        cases rest with
        | nil => exact absurd (List.cons.inj same).1 (by decide)
        | cons d others =>
            obtain rfl : d = '/' := (List.cons.inj same).1
            exact isOpen (List.prefix_append "*/".toList others).isInfix
      rw [removeFrom]
      exact goesOn

theorem removeFrom_inLine {body : Text} (isLine : '\n' ∉ body) (after : Text) :
    removeFrom .inLine (body ++ '\n' :: after) = '\n' :: removeFrom .outside after ∧
      removeFrom .inLine body = [] := by
  induction body with
  | nil => exact ⟨rfl, rfl⟩
  | cons c rest inductionHypothesis =>
      obtain ⟨first, others⟩ := not_or.mp (mt List.mem_cons.mpr isLine)
      simp [removeFrom, Ne.symm first, inductionHypothesis others]

/-- Of a piece its rest is left, whatever follows. -/
theorem removeFrom_piece (piece : Piece) (after : Text) :
    removeFrom .outside (piece.text ++ after) = piece.rest ++ removeFrom .outside after := by
  cases piece with
  | literal parts =>
      have opens : removeFrom .outside ('"' :: (parts.flatMap LiteralPart.text ++ '"' :: after)) =
          '"' :: removeFrom .inString (parts.flatMap LiteralPart.text ++ '"' :: after) := rfl
      simp [Piece.text, Piece.rest, opens, removeFrom_parts]
  | other text isOther => exact removeFrom_other isOther after
  | block body isOpen =>
      have opens : removeFrom .outside ('/' :: '*' :: (body ++ '*' :: '/' :: after)) =
          removeFrom .inBlock (body ++ '*' :: '/' :: after) := rfl
      simp [Piece.text, Piece.rest, opens, removeFrom_inBlock isOpen]
  | line body isLine =>
      have opens : removeFrom .outside ('/' :: '/' :: (body ++ '\n' :: after)) =
          removeFrom .inLine (body ++ '\n' :: after) := rfl
      simp [Piece.text, Piece.rest, opens, (removeFrom_inLine isLine after).1]

/-- Of pieces their rests are left, whatever follows. -/
theorem removeFrom_pieces (pieces : List Piece) (after : Text) :
    removeFrom .outside (pieces.flatMap Piece.text ++ after) =
      pieces.flatMap Piece.rest ++ removeFrom .outside after := by
  induction pieces with
  | nil => rfl
  | cons piece others inductionHypothesis =>
      rw [List.flatMap_cons, List.append_assoc, removeFrom_piece, inductionHypothesis,
        List.flatMap_cons, List.append_assoc]

theorem remove_commented (source : Commented) :
    remove source.text = source.pieces.flatMap Piece.rest := by
  obtain ⟨pieces, last⟩ := source
  rw [remove, Commented.text, removeFrom_pieces]
  cases last with
  | none => simp [removeFrom]
  | some body =>
      have opens : removeFrom .outside ("//".toList ++ body.1) = removeFrom .inLine body.1 := rfl
      simp only [Option.map_some, Option.getD_some]
      rw [opens, (removeFrom_inLine body.2 []).2, List.append_nil]

/-! ## Removing again -/

/-- Where the reader stands in what is left of a text: there are no comments to stand in. -/
def Mode.left : Mode → Mode
  | .inString => .inString
  | .inEscape => .inEscape
  | .outside => .outside
  | .inLine => .outside
  | .inBlock => .outside

/-- What is left of a text begins like the text, unless a comment may begin there. -/
theorem head?_removeFrom {text : Text} (noSlash : text.head? ≠ some '/') :
    (removeFrom .outside text).head? = text.head? := by
  cases text with
  | nil => rfl
  | cons c rest =>
      have opensNone : ¬ OpensComment c rest := fun opens => noSlash (congrArg some opens.1)
      rw [removeFrom_outside opensNone]
      rfl

/-- A character that opens no comment opens none in what is left of the text. -/
theorem not_opensComment_removeFrom
    {c : Char}
    {after : Text}
    (opensNone : ¬ OpensComment c after) :
    ¬ OpensComment c (removeFrom (if c = '"' then .inString else .outside) after) := by
  rintro ⟨rfl, opens⟩
  have noSlash : after.head? ≠ some '/' := fun slash => opensNone ⟨rfl, .inl slash⟩
  rw [if_neg (by decide), head?_removeFrom noSlash] at opens
  exact opensNone ⟨rfl, opens⟩

/-- What is left of a text is left as it is when its comments are removed once more. -/
theorem removeFrom_removeFrom (mode : Mode) (text : Text) :
    removeFrom mode.left (removeFrom mode text) = removeFrom mode text := by
  fun_induction removeFrom mode text with
  | case1 mode => cases mode <;> rfl
  | case2 c rest inductionHypothesis => exact congrArg (c :: ·) inductionHypothesis
  | case3 c rest inductionHypothesis =>
      -- A string is left within itself, and outside there is no comment behind it.
      have stays :
          (if c = '"' then Mode.outside else if c = '\\' then .inEscape else .inString).left =
            if c = '"' then Mode.outside else if c = '\\' then .inEscape else .inString := by
        split
        · rfl
        · split <;> rfl
      rw [stays] at inductionHypothesis
      exact congrArg (c :: ·) inductionHypothesis
  | case4 rest inductionHypothesis => exact congrArg ('\n' :: ·) inductionHypothesis
  | case5 c rest sameLine inductionHypothesis => exact inductionHypothesis
  | case6 rest inductionHypothesis => exact inductionHypothesis
  | case7 c rest goesOn inductionHypothesis => exact inductionHypothesis
  | case8 rest inductionHypothesis => exact inductionHypothesis
  | case9 rest inductionHypothesis => exact inductionHypothesis
  | case10 c rest noLine noBlock inductionHypothesis =>
      have opensNone : ¬ OpensComment c rest := by
        rintro ⟨rfl, slash | star⟩
        · obtain ⟨tail, rfl⟩ := List.head?_eq_some_iff.mp slash
          exact noLine tail rfl rfl
        · obtain ⟨tail, rfl⟩ := List.head?_eq_some_iff.mp star
          exact noBlock tail rfl rfl
      have stays : (if c = '"' then Mode.inString else .outside).left =
          if c = '"' then Mode.inString else .outside := by
        split <;> rfl
      rw [stays] at inductionHypothesis
      rw [Mode.left, removeFrom_outside (not_opensComment_removeFrom opensNone),
        inductionHypothesis]

/-- Without its comments a text that is made of string literals, comments and other text is made
of the literals and the other text, and of the line feeds behind comments. And whatever the text,
nothing more is removed from what is left of it. -/
theorem remove_leaves (source : Commented) (text : Text) :
    remove source.text = source.pieces.flatMap Piece.rest ∧
      remove (remove text) = remove text :=
  ⟨remove_commented source, removeFrom_removeFrom .outside text⟩

-- Stars and slashes in a body close no comment by themselves, and a string opens none.
example : remove "a/***/b/*/*/c // d\n\"/*\\\"*/\"" = "abc \n\"/*\\\"*/\"" := by
  decide

end Comments
end StyleTypings
