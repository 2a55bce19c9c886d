import StyleTypings.Compile.SourceUnit
import StyleTypings.Proofs.Stylesheet.Scanning
import StyleTypings.Proofs.Stylesheet.Spans
import StyleTypings.Proofs.Text.Lines

/-!
# Places in a text without its line comments

Blanking a line comment keeps the bytes of the text but not its columns: one
character may become several spaces. A comment reaches to the end of its line,
though, so every character that is no space keeps its offset, its line and its
column.
-/

namespace StyleTypings

/-- Two texts reach to the same offset, line and column. -/
structure Text.Level (left right : Text) : Prop where
  size : left.byteSize = right.byteSize
  lines : left.count '\n' = right.count '\n'
  lastLine : left.lastLine = right.lastLine

namespace Text

theorem Level.refl (text : Text) : Level text text :=
  ⟨rfl, rfl, rfl⟩

theorem Level.mem_iff
    {left right : Text}
    (level : Level left right) :
    '\n' ∈ left ↔ '\n' ∈ right := by
  rw [← List.count_pos_iff, ← List.count_pos_iff, level.lines]

/-- A common front keeps texts level. -/
theorem Level.append_left
    {left right : Text}
    (level : Level left right)
    (front : Text) :
    Level (front ++ left) (front ++ right) := by
  have last := level.lastLine
  refine ⟨by simp [level.size], by simp [level.lines], ?_⟩
  by_cases broken : '\n' ∈ left
  · rw [lastLine_append_of_mem front broken, last,
      lastLine_append_of_mem front (level.mem_iff.mp broken)]
  · have oneLine : '\n' ∉ right := fun present => broken (level.mem_iff.mpr present)
    rw [lastLine_of_notMem broken, lastLine_of_notMem oneLine] at last
    rw [last]

/-- In front of a line feed only the number of bytes and lines counts. -/
theorem Level.append
    {left right front front' : Text}
    (level : Level left right)
    (broken : '\n' ∈ right)
    (size : front.byteSize = front'.byteSize)
    (lines : front.count '\n' = front'.count '\n') :
    Level (front ++ left) (front' ++ right) := by
  refine ⟨by simp [size, level.size], by simp [lines, level.lines], ?_⟩
  rw [lastLine_append_of_mem front (level.mem_iff.mpr broken), level.lastLine,
    lastLine_append_of_mem front' broken]

theorem Level.placeAfter_eq
    {left right : Text}
    (level : Level left right) :
    placeAfter left = placeAfter right := by
  unfold placeAfter
  rw [level.lines, level.lastLine]

end Text

namespace SourceUnit

theorem byteSize_replicate_space (count : Nat) :
    Text.byteSize (List.replicate count ' ') = count := by
  induction count with
  | zero => rfl
  | succ count inductionHypothesis =>
      rw [List.replicate_succ, Text.byteSize_cons, inductionHypothesis]
      exact Nat.add_comm _ _

theorem byteSize_blankLexeme (lexeme : Lexeme) :
    (blankLexeme lexeme).byteSize = lexeme.text.byteSize := by
  unfold blankLexeme
  split
  · exact byteSize_replicate_space _
  · rfl

/-- Blanking keeps the bytes of a text. -/
theorem byteSize_flatMap_blankLexeme (lexemes : List Lexeme) :
    Text.byteSize (lexemes.flatMap blankLexeme) =
      Text.byteSize (lexemes.flatMap Lexeme.text) := by
  induction lexemes with
  | nil => rfl
  | cons lexeme rest inductionHypothesis =>
      rw [List.flatMap_cons, List.flatMap_cons, Text.byteSize_append, Text.byteSize_append,
        byteSize_blankLexeme, inductionHypothesis]

/-- The text of a file as CSS has as many bytes as the file. -/
theorem byteSize_cleanText (path : Path) (text : Text) :
    (cleanText path text).byteSize = text.byteSize := by
  unfold cleanText
  split
  · rfl
  · rw [blankLineComments, byteSize_flatMap_blankLexeme, Lexer.flatMap_text_lexemes]

/-- A way to write lexemes that may change line comments, but neither where they end nor
that they are on one line. -/
structure KeepsLines (write : Lexeme → Text) : Prop where
  size : ∀ lexeme, (write lexeme).byteSize = lexeme.text.byteSize
  kept : ∀ lexeme, lexeme.kind ≠ .lineComment → write lexeme = lexeme.text
  oneLine : ∀ lexeme, '\n' ∉ lexeme.text → '\n' ∉ write lexeme

theorem keepsLines_text : KeepsLines Lexeme.text :=
  ⟨fun _ => rfl, fun _ _ => rfl, fun _ oneLine => oneLine⟩

theorem keepsLines_blankLexeme : KeepsLines blankLexeme := by
  refine ⟨byteSize_blankLexeme, fun _ noComment => if_neg noComment, fun lexeme oneLine => ?_⟩
  unfold blankLexeme
  split
  · exact fun present => absurd (List.eq_of_mem_replicate present) (by decide)
  · exact oneLine

/-- Written down, the text behind a line comment begins with a line feed. -/
theorem KeepsLines.head?_flatMap
    {write : Lexeme → Text}
    (keeps : KeepsLines write)
    (depth : Nat)
    {text : Text}
    (breaks : ∀ c ∈ text.head?, c = '\n') :
    ∀ c ∈ ((Lexer.lexemes .less depth text).flatMap write).head?, c = '\n' := by
  cases text with
  | nil => simp [Lexer.lexemes]
  | cons first rest =>
      obtain rfl := breaks first rfl
      have kind : (Lexer.classify .less depth '\n' rest).1 = .whitespace :=
        congrArg Prod.fst (Lexer.classify_of_isSpace rfl .less depth rest)
      have noComment : (Lexer.classify .less depth '\n' rest).1 ≠ .lineComment := by
        rw [kind]
        decide
      rw [Lexer.lexemes, List.flatMap_cons, keeps.kept _ noComment]
      intro c isFirst
      exact (Option.some.inj isFirst).symm

/-- A place in written lexemes is level with one in the same lexemes written otherwise, or
it is inside a line comment or at its end. There the text goes on with the comment or with
a line feed. -/
theorem KeepsLines.exists_level_or_within
    {write other : Lexeme → Text}
    (keeps : KeepsLines write)
    (keepsToo : KeepsLines other)
    {depth : Nat}
    (offset : Nat)
    {text front back : Text}
    (split : (Lexer.lexemes .less depth text).flatMap write = front ++ back) :
    (∃ before after, (Lexer.lexemes .less depth text).flatMap other = before ++ after ∧
        Text.Level front before) ∨
      ∃ token ∈ Lexeme.place offset (Lexer.lexemes .less depth text),
        token.kind = .lineComment ∧
        (token.start < offset + front.byteSize ∧ offset + front.byteSize ≤ token.stop) ∧
        ∀ c ∈ back.head?, c ∈ write token.lexeme ∨ c = '\n' := by
  fun_induction Lexer.lexemes .less depth text generalizing front offset with
  | case1 =>
      obtain ⟨rfl, -⟩ := List.append_eq_nil_iff.mp split.symm
      exact .inl ⟨[], [], rfl, .refl []⟩
  | case2 depth first rest lexed =>
      rename_i inductionHypothesis
      let lexeme : Lexeme := ⟨lexed.1, first :: rest.take lexed.2⟩
      have size := keeps.size lexeme
      have comment (isComment : lexeme.kind = .lineComment) :
          '\n' ∉ lexeme.text ∧ ∀ c ∈ ((Lexer.lexemes .less (lexed.1.depthAfter depth)
            (rest.drop lexed.2)).flatMap write).head?, c = '\n' :=
        have found : Lexer.Classifies .less depth first rest (.lineComment, lexed.2) :=
          Lexer.classifies_iff.mpr (Prod.ext isComment rfl)
        have ends := found.ends_of_lineComment
        ⟨ends.1, keeps.head?_flatMap _ ends.2⟩
      rw [List.flatMap_cons] at split ⊢
      rcases cases_of_append_eq_append split with
        ⟨inside, shorter, rfl⟩ | ⟨c, others, rfl, later⟩
      · by_cases isComment : lexeme.kind = .lineComment
        · by_cases nothing : front = []
          · exact .inl ⟨[], _, rfl, nothing ▸ .refl []⟩
          · have sizes := congrArg Text.byteSize shorter
            rw [size, Text.byteSize_append] at sizes
            refine .inr ⟨⟨lexed.1, lexeme.text, offset⟩, List.mem_cons_self, isComment,
              ⟨Nat.lt_add_of_pos_right (Text.byteSize_pos_of_ne_nil nothing),
                Nat.add_le_add_left (sizes ▸ Nat.le_add_right _ _) offset⟩, fun c isFirst => ?_⟩
            cases inside with
            | nil => exact .inr ((comment isComment).2 c isFirst)
            | cons next others =>
                obtain rfl := Option.some.inj isFirst
                exact .inl (shorter ▸ List.mem_append_right front List.mem_cons_self)
        · have isText : other lexeme = front ++ inside := by
            rw [keepsToo.kept lexeme isComment, ← keeps.kept lexeme isComment, shorter]
          exact .inl ⟨front, _, isText ▸ List.append_assoc _ _ _, .refl front⟩
      · rw [Text.byteSize_append, size, ← Nat.add_assoc]
        rcases inductionHypothesis (offset + lexeme.text.byteSize) later with
          ⟨before, after, written, level⟩ | ⟨token, present, within⟩
        · refine .inl ⟨other lexeme ++ before, after, by rw [written, List.append_assoc], ?_⟩
          by_cases isComment : lexeme.kind = .lineComment
          · -- Behind the comment is a line feed, so its columns do not matter.
            obtain ⟨oneLine, begins⟩ := comment isComment
            rw [later] at begins
            have broken : '\n' ∈ c :: others := begins c rfl ▸ List.mem_cons_self
            refine level.append (level.mem_iff.mp broken)
              (size.trans (keepsToo.size lexeme).symm) ?_
            rw [List.count_eq_zero.mpr (keeps.oneLine lexeme oneLine),
              List.count_eq_zero.mpr (keepsToo.oneLine lexeme oneLine)]
          · rw [keeps.kept lexeme isComment, keepsToo.kept lexeme isComment]
            exact level.append_left lexeme.text
        · exact .inr ⟨token, List.mem_cons_of_mem _ present, within⟩

/-- A character that is no space keeps its offset, line and column when line
comments are blanked. -/
theorem isPlace_of_cleanText
    {path : Path}
    {text : Text}
    {offset : Nat}
    {place : LineColumn}
    (solid : (cleanText path text).SolidAt offset)
    (isPlace : (cleanText path text).IsPlace offset place) :
    text.IsPlace offset place := by
  cases dialect : Dialect.ofExtension path.extension? with
  | css =>
      have kept : cleanText path text = text := by simp only [cleanText, dialect]
      rw [kept] at isPlace
      exact isPlace
  | less =>
      have blanked : cleanText path text =
          (Lexer.lexemes .less 0 text).flatMap blankLexeme := by
        simp only [cleanText, dialect, blankLineComments]
      obtain ⟨front, c, back, split, rfl, notSpace⟩ := solid
      rcases keepsLines_blankLexeme.exists_level_or_within keepsLines_text 0
          (blanked.symm.trans split) with
        ⟨before, after, found, level⟩ | ⟨token, -, isComment, -, goesOn⟩
      · refine ⟨before, after, ?_, level.size.symm, ?_⟩
        · rw [← found, Lexer.flatMap_text_lexemes]
        · rw [← level.placeAfter_eq]
          exact isPlace.unique ⟨front, c :: back, split, rfl, rfl⟩
      · have isSpace : Lexer.isSpace c = true := by
          rcases goesOn c rfl with blank | rfl
          · have isText : blankLexeme token.lexeme = List.replicate _ ' ' := if_pos isComment
            rw [isText] at blank
            exact List.eq_of_mem_replicate blank ▸ rfl
          · rfl
        exact absurd isSpace (Bool.eq_false_iff.mp notSpace)

end SourceUnit
end StyleTypings
