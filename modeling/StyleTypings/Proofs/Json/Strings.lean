import StyleTypings.Json.Token
import StyleTypings.Json.Writer

/-!
# Written strings read back

A string literal lexes to one token with the text it was written for, whatever
characters the text has and whatever follows the literal.
-/

namespace StyleTypings
namespace Json

/-- A hexadecimal digit has its value. -/
theorem hexDigit?_hexDigit : ∀ n < 16, hexDigit? (hexDigit n) = some n := by
  decide

/-- Four digits name the control character they were written for. -/
theorem hexUnit?_escape {code : Nat} (isControl : code < 0x20) :
    hexUnit? '0' '0' (hexDigit (code / 16)) (hexDigit (code % 16)) = some code := by
  have zero : hexDigit? '0' = some 0 := by decide
  have high := hexDigit?_hexDigit (code / 16) (by omega)
  have low := hexDigit?_hexDigit (code % 16) (by omega)
  simp only [hexUnit?, zero, high, low, bind, Option.bind]
  congr 1
  omega

/-- Puts a piece in front of what was read. -/
def withPiece
    (piece : StringPiece)
    (read : List StringPiece × Text) : List StringPiece × Text :=
  (piece :: read.1, read.2)

/-- A character without an escape is a piece of its own. -/
theorem stringPieces?_plain
    {c : Char}
    (notQuote : c ≠ '"')
    (notBackslash : c ≠ '\\')
    (printable : ¬ c.toNat < 0x20)
    (rest : Text) :
    stringPieces? (c :: rest) =
      (stringPieces? rest).map (withPiece (.char c)) := by
  have kept : ¬ (c.toNat < 0x20 || c == '\\') = true := by
    simp [notBackslash, printable]
  rw [stringPieces?.eq_def]
  split
  · next empty => exact absurd empty (List.cons_ne_nil _ _)
  · next equal => exact absurd (List.cons.inj equal).1 notQuote
  · next equal => exact absurd (List.cons.inj equal).1 notBackslash
  · next equal => exact absurd (List.cons.inj equal).1 notBackslash
  · next equal =>
      obtain ⟨rfl, rfl⟩ := List.cons.inj equal
      rw [if_neg kept]
      cases stringPieces? rest <;> rfl

/-- A letter after a backslash names a character. -/
theorem stringPieces?_letter
    {mark c : Char}
    (named : escaped? mark = some c)
    (rest : Text) :
    stringPieces? ('\\' :: mark :: rest) =
      (stringPieces? rest).map (withPiece (.char c)) := by
  have notUnit : mark ≠ 'u' := by
    rintro rfl
    exact absurd named nofun
  rw [stringPieces?.eq_def]
  split
  · next empty => exact absurd empty (List.cons_ne_nil _ _)
  · next equal => exact absurd (List.cons.inj equal).1 (by decide)
  · next equal =>
      exact absurd (List.cons.inj (List.cons.inj equal).2).1 notUnit
  · next equal =>
      obtain ⟨rfl, rfl⟩ := List.cons.inj (List.cons.inj equal).2
      rw [named]
      cases stringPieces? rest <;> rfl
  · next notEscape equal =>
      obtain ⟨backslash, others⟩ := List.cons.inj equal
      exact absurd others.symm (notEscape mark rest backslash.symm)

/-- A unit below the surrogates is its character. -/
theorem piecesText?_unit
    {value : Nat}
    (low : value < 0xD800)
    (pieces : List StringPiece) :
    piecesText? (.unit value :: pieces) =
      (piecesText? pieces).map (Char.ofNat value :: ·) := by
  have outside : (value < 0xD800 || 0xDFFF < value) = true := by simp [low]
  cases pieces with
  | nil => exact if_pos outside
  | cons piece others =>
      cases piece with
      | char c => exact if_pos outside
      | unit next => exact if_pos outside

/-- The piece that a written character is read as. -/
theorem exists_piece (c : Char) :
    ∃ piece,
      (∀ rest, stringPieces? (escape c ++ rest) =
        (stringPieces? rest).map (withPiece piece)) ∧
      ∀ pieces, piecesText? (piece :: pieces) = (piecesText? pieces).map (c :: ·) := by
  unfold escape
  split
  · exact ⟨.char '"', fun rest => stringPieces?_letter rfl rest, fun pieces => rfl⟩
  · exact ⟨.char '\\', fun rest => stringPieces?_letter rfl rest, fun pieces => rfl⟩
  · exact ⟨.char '\x08', fun rest => stringPieces?_letter rfl rest, fun pieces => rfl⟩
  · exact ⟨.char '\x0c', fun rest => stringPieces?_letter rfl rest, fun pieces => rfl⟩
  · exact ⟨.char '\n', fun rest => stringPieces?_letter rfl rest, fun pieces => rfl⟩
  · exact ⟨.char '\r', fun rest => stringPieces?_letter rfl rest, fun pieces => rfl⟩
  · exact ⟨.char '\t', fun rest => stringPieces?_letter rfl rest, fun pieces => rfl⟩
  · next notQuote notBackslash _ _ _ _ _ =>
      split
      · next isControl =>
          refine ⟨.unit c.toNat, fun rest => ?_, fun pieces => ?_⟩
          · rw [List.cons_append, List.cons_append, List.cons_append, List.cons_append,
              List.cons_append, List.cons_append, List.nil_append, stringPieces?,
              hexUnit?_escape isControl]
            cases stringPieces? rest <;> rfl
          · have low : c.toNat < 0xD800 := by omega
            rw [piecesText?_unit low, Char.ofNat_toNat]
      · next printable =>
          exact ⟨.char c, stringPieces?_plain notQuote notBackslash printable,
            fun pieces => rfl⟩

/-- The pieces of a written text give the text. -/
theorem stringPieces?_flatMap_escape (text rest : Text) :
    ∃ pieces,
      stringPieces? (text.flatMap escape ++ '"' :: rest) = some (pieces, rest) ∧
        piecesText? pieces = some text := by
  induction text with
  | nil => exact ⟨[], rfl, rfl⟩
  | cons c others inductionHypothesis =>
      obtain ⟨pieces, read, gives⟩ := inductionHypothesis
      obtain ⟨piece, first, means⟩ := exists_piece c
      refine ⟨piece :: pieces, ?_, ?_⟩
      · rw [List.flatMap_cons, List.append_assoc, first, read]
        rfl
      · rw [means, gives]
        rfl

/-- A string literal is one token. -/
theorem next?_quote (text rest : Text) :
    Token.next? (quote text ++ rest) =
      some (.scalar (.string (some text)), rest) := by
  obtain ⟨pieces, read, gives⟩ := stringPieces?_flatMap_escape text rest
  have shape : quote text ++ rest = '"' :: (text.flatMap escape ++ '"' :: rest) := by
    simp [quote]
  rw [shape, Token.next?, read, Option.map_some, gives]

end Json
end StyleTypings
