import Mathlib.Data.List.Forall2
import StyleTypings.Json.Reader
import StyleTypings.Proofs.Json.Strings

/-!
# Written values read back

A written value lexes to the same tokens whatever ends it, and the reader takes
these tokens as one value whatever containers are open. Both facts pass from the
parts of an array or an object to the whole, so a written document is read as
the value it was written for.
-/

namespace StyleTypings
namespace Json

/-- What may follow a value: nothing, a comma or the end of a container. -/
def Delimited (rest : Text) : Prop :=
  ∀ c, rest.head? = some c → c = ',' ∨ c = ']' ∨ c = '}'

theorem delimited_cons
    {c : Char}
    (ends : c = ',' ∨ c = ']' ∨ c = '}')
    (rest : Text) :
    Delimited (c :: rest) := by
  intro first isFirst
  rw [List.head?_cons, Option.some.injEq] at isFirst
  exact isFirst ▸ ends

/-- A text has some tokens, whatever ends it. -/
def Lexes (text : Text) (tokens : List Token) : Prop :=
  ∀ rest, Delimited rest →
    tokens? (text ++ rest) = (tokens? rest).map (tokens ++ ·)

/-- Some tokens are taken as one value, whatever is open. -/
def Folds (tokens : List Token) (value : Json) : Prop :=
  ∀ justOpen frames,
    tokens.foldl Reader.step (.value justOpen frames) = Reader.accept value frames

/-- A text is read as a value, wherever it stands. -/
def Reads (text : Text) (value : Json) : Prop :=
  ∃ tokens, Lexes text tokens ∧ Folds tokens value

/-! ## Tokens -/

/-- A token at the front comes first. -/
theorem tokens?_of_next?
    {c : Char}
    {rest after : Text}
    {token : Token}
    (notBlank : isJsonBlank c = false)
    (next : Token.next? (c :: rest) = some (token, after))
    (shorter : after.length ≤ rest.length) :
    tokens? (c :: rest) = (tokens? after).map (token :: ·) := by
  rw [tokens?, if_neg (by simp [notBlank]), next]
  exact if_pos shorter

theorem tokens?_openArray (rest : Text) :
    tokens? ('[' :: rest) = (tokens? rest).map (.openArray :: ·) :=
  tokens?_of_next? rfl rfl (Nat.le_refl _)

theorem tokens?_closeArray (rest : Text) :
    tokens? (']' :: rest) = (tokens? rest).map (.closeArray :: ·) :=
  tokens?_of_next? rfl rfl (Nat.le_refl _)

theorem tokens?_openObject (rest : Text) :
    tokens? ('{' :: rest) = (tokens? rest).map (.openObject :: ·) :=
  tokens?_of_next? rfl rfl (Nat.le_refl _)

theorem tokens?_closeObject (rest : Text) :
    tokens? ('}' :: rest) = (tokens? rest).map (.closeObject :: ·) :=
  tokens?_of_next? rfl rfl (Nat.le_refl _)

theorem tokens?_comma (rest : Text) :
    tokens? (',' :: rest) = (tokens? rest).map (.comma :: ·) :=
  tokens?_of_next? rfl rfl (Nat.le_refl _)

theorem tokens?_colon (rest : Text) :
    tokens? (':' :: rest) = (tokens? rest).map (.colon :: ·) :=
  tokens?_of_next? rfl rfl (Nat.le_refl _)

theorem tokens?_quote (text rest : Text) :
    tokens? (quote text ++ rest) =
      (tokens? rest).map (.scalar (.string (some text)) :: ·) := by
  have read := next?_quote text rest
  have shape : quote text ++ rest = '"' :: (text.flatMap escape ++ '"' :: rest) := by
    simp [quote]
  rw [shape] at read ⊢
  refine tokens?_of_next? rfl read ?_
  rw [List.length_append, List.length_cons]
  omega

/-- Joined texts have the joined tokens. -/
theorem lexes_join
    {texts : List Text}
    {tokenLists : List (List Token)}
    (each : List.Forall₂ Lexes texts tokenLists) :
    Lexes (Text.join [','] texts) ([Token.comma].intercalate tokenLists) := by
  induction each with
  | nil =>
      intro rest _
      cases lexed : tokens? rest <;> simp [Text.join, lexed]
  | @cons text tokens texts tokenLists first others inductionHypothesis =>
      cases others with
      | nil => simpa [Text.join] using first
      | @cons next nextTokens _ _ second more =>
          intro rest delimited
          rw [Text.join, List.intercalate_cons_cons, List.intercalate_cons_cons,
            List.append_assoc, List.append_assoc,
            List.singleton_append, first _ (delimited_cons (Or.inl rfl) _), tokens?_comma]
          have later := inductionHypothesis rest delimited
          rw [Text.join] at later
          rw [later]
          cases tokens? rest <;> simp

/-- Square brackets around. -/
theorem Lexes.brackets
    {text : Text}
    {tokens : List Token}
    (inner : Lexes text tokens) :
    Lexes ('[' :: text ++ [']']) (.openArray :: tokens ++ [.closeArray]) := by
  intro rest _
  have closed := inner _ (delimited_cons (c := ']') (Or.inr (Or.inl rfl)) rest)
  rw [List.cons_append, List.cons_append, List.append_assoc, List.singleton_append,
    tokens?_openArray, closed, tokens?_closeArray]
  cases tokens? rest <;> simp

/-- Braces around. -/
theorem Lexes.braces
    {text : Text}
    {tokens : List Token}
    (inner : Lexes text tokens) :
    Lexes ('{' :: text ++ ['}']) (.openObject :: tokens ++ [.closeObject]) := by
  intro rest _
  have closed := inner _ (delimited_cons (c := '}') (Or.inr (Or.inr rfl)) rest)
  rw [List.cons_append, List.cons_append, List.append_assoc, List.singleton_append,
    tokens?_openObject, closed, tokens?_closeObject]
  cases tokens? rest <;> simp

/-- A key in front. -/
theorem Lexes.member
    {text : Text}
    {tokens : List Token}
    (key : Text)
    (value : Lexes text tokens) :
    Lexes (quote key ++ ':' :: text)
      (.scalar (.string (some key)) :: .colon :: tokens) := by
  intro rest delimited
  rw [List.append_assoc, List.cons_append, tokens?_quote, tokens?_colon,
    value rest delimited]
  cases tokens? rest <;> simp

/-! ## Values -/

/-- Tokens of some items and the end of the array. -/
theorem foldl_items
    {tokenLists : List (List Token)}
    {values : List Json}
    (each : List.Forall₂ Folds tokenLists values)
    (nonempty : tokenLists ≠ [])
    (justOpen : Bool)
    (reversed : List Json)
    (frames : List Frame) :
    ([Token.comma].intercalate tokenLists ++ [Token.closeArray]).foldl Reader.step
        (.value justOpen (.items reversed :: frames)) =
      Reader.accept (.array (reversed.reverse ++ values)) frames := by
  induction each generalizing justOpen reversed with
  | nil => exact absurd rfl nonempty
  | @cons tokens value tokenLists values first others inductionHypothesis =>
      cases others with
      | nil =>
          rw [List.intercalate_singleton, List.foldl_append, first, List.foldl_cons,
            List.foldl_nil, Reader.accept, Reader.step, List.reverse_cons]
      | cons second more =>
          rw [List.intercalate_cons_cons, List.append_assoc, List.append_assoc,
            List.foldl_append, first, List.foldl_append, List.foldl_cons,
            List.foldl_nil, Reader.accept, Reader.step,
            inductionHypothesis (List.cons_ne_nil _ _), List.reverse_cons,
            List.append_assoc, List.singleton_append]

/-- Tokens of a member: a key and the tokens of a value. -/
def FoldsMember (tokens : List Token) (entry : Option Text × Json) : Prop :=
  ∃ valueTokens,
    tokens = .scalar (.string entry.1) :: .colon :: valueTokens ∧
      Folds valueTokens entry.2

/-- Tokens of some members and the end of the object. -/
theorem foldl_members
    {tokenLists : List (List Token)}
    {entries : List (Option Text × Json)}
    (each : List.Forall₂ FoldsMember tokenLists entries)
    (nonempty : tokenLists ≠ [])
    (justOpen : Bool)
    (reversed : List (Option Text × Json))
    (frames : List Frame) :
    ([Token.comma].intercalate tokenLists ++ [Token.closeObject]).foldl Reader.step
        (.key justOpen reversed frames) =
      Reader.accept (.object (reversed.reverse ++ entries)) frames := by
  induction each generalizing justOpen reversed with
  | nil => exact absurd rfl nonempty
  | @cons tokens entry tokenLists entries first others inductionHypothesis =>
      obtain ⟨valueTokens, rfl, taken⟩ := first
      cases others with
      | nil =>
          rw [List.intercalate_singleton, List.cons_append, List.cons_append,
            List.foldl_cons, List.foldl_cons, Reader.step, Reader.step,
            List.foldl_append, taken, List.foldl_cons, List.foldl_nil, Reader.accept,
            Reader.step, List.reverse_cons]
      | cons second more =>
          rw [List.intercalate_cons_cons, List.append_assoc, List.append_assoc,
            List.cons_append, List.cons_append, List.foldl_cons, List.foldl_cons,
            Reader.step, Reader.step, List.foldl_append, taken, List.foldl_append,
            List.foldl_cons, List.foldl_nil, Reader.accept, Reader.step,
            inductionHypothesis (List.cons_ne_nil _ _), List.reverse_cons,
            List.append_assoc, List.singleton_append]

/-- A string literal is read as its text. -/
theorem reads_quote (text : Text) : Reads (quote text) (.string (some text)) :=
  ⟨[.scalar (.string (some text))], fun rest _ => tokens?_quote text rest,
    fun _ _ => rfl⟩

/-- Items read one by one have tokens one by one. -/
theorem exists_tokenLists
    {texts : List Text}
    {values : List Json}
    (each : List.Forall₂ Reads texts values) :
    ∃ tokenLists,
      List.Forall₂ Lexes texts tokenLists ∧ List.Forall₂ Folds tokenLists values := by
  induction each with
  | nil => exact ⟨[], .nil, .nil⟩
  | cons first _ inductionHypothesis =>
      obtain ⟨tokens, lexes, folds⟩ := first
      obtain ⟨tokenLists, lexAll, foldAll⟩ := inductionHypothesis
      exact ⟨tokens :: tokenLists, .cons lexes lexAll, .cons folds foldAll⟩

/-- An array is read as the array of the values of its items. -/
theorem reads_writeArray
    {texts : List Text}
    {values : List Json}
    (each : List.Forall₂ Reads texts values) :
    Reads (writeArray texts) (.array values) := by
  obtain ⟨tokenLists, lexAll, foldAll⟩ := exists_tokenLists each
  refine ⟨_, (lexes_join lexAll).brackets, fun justOpen frames => ?_⟩
  rw [List.cons_append, List.foldl_cons, Reader.step]
  rcases List.eq_nil_or_concat' tokenLists with rfl | ⟨_, _, rfl⟩
  · cases foldAll
    rfl
  · rw [foldl_items foldAll (by simp)]
    rfl

/-- Strings are read one by one. -/
theorem forall₂_reads_quote (texts : List Text) :
    List.Forall₂ Reads (texts.map quote) (texts.map fun text => .string (some text)) := by
  rw [List.forall₂_map_left_iff, List.forall₂_map_right_iff]
  exact List.forall₂_same.mpr fun text _ => reads_quote text

/-- A written member is read as a key and a value. -/
def ReadsMember (member : Text × Text) (entry : Option Text × Json) : Prop :=
  entry.1 = some member.1 ∧ Reads member.2 entry.2

/-- Members read one by one have tokens one by one. -/
theorem exists_memberTokenLists
    {members : List (Text × Text)}
    {entries : List (Option Text × Json)}
    (each : List.Forall₂ ReadsMember members entries) :
    ∃ tokenLists,
      List.Forall₂ Lexes
          (members.map fun member => quote member.1 ++ ':' :: member.2) tokenLists ∧
        List.Forall₂ FoldsMember tokenLists entries := by
  induction each with
  | nil => exact ⟨[], .nil, .nil⟩
  | @cons member entry _ _ first _ inductionHypothesis =>
      obtain ⟨named, tokens, lexes, folds⟩ := first
      obtain ⟨tokenLists, lexAll, foldAll⟩ := inductionHypothesis
      exact ⟨_, .cons (lexes.member member.1) lexAll,
        .cons ⟨tokens, by rw [named], folds⟩ foldAll⟩

/-- An object is read as the object of its members. -/
theorem reads_writeObject
    {members : List (Text × Text)}
    {entries : List (Option Text × Json)}
    (each : List.Forall₂ ReadsMember members entries) :
    Reads (writeObject members) (.object entries) := by
  obtain ⟨tokenLists, lexAll, foldAll⟩ := exists_memberTokenLists each
  refine ⟨_, (lexes_join lexAll).braces, fun justOpen frames => ?_⟩
  rw [List.cons_append, List.foldl_cons, Reader.step]
  rcases List.eq_nil_or_concat' tokenLists with rfl | ⟨_, _, rfl⟩
  · cases foldAll
    rfl
  · rw [foldl_members foldAll (by simp)]
    rfl

/-- A text that is read as a value anywhere is read as it alone. -/
theorem read?_of_reads
    {text : Text}
    {value : Json}
    (reads : Reads text value) :
    read? text = some value := by
  obtain ⟨tokens, lexes, folds⟩ := reads
  have all : tokens? text = some tokens := by
    have lexed := lexes [] (fun c isFirst => absurd isFirst nofun)
    rw [List.append_nil, tokens?] at lexed
    rw [lexed, Option.map_some, List.append_nil]
  have taken := folds false []
  simp only [read?, all, taken, Reader.accept, bind, Option.bind]

end Json
end StyleTypings
