import Mathlib.Data.List.Basic
import StyleTypings.Proofs.Text.IdentifierTable
import StyleTypings.Text.Case

/-!
# Identifiers and case

An identifier name of ECMAScript begins with a character of `ID_Start`, a dollar sign or an
underscore, and goes on with characters of `ID_Continue`, dollar signs and joiners. A text in
lower case is an identifier just if the text is, and characters in upper case may go on an
identifier just if they may in any case.
-/

namespace StyleTypings

/-! ## Case mappings over a table -/

namespace CodeRange

/-- The codes of a range. -/
def codes (range : CodeRange) : List Nat :=
  (List.range' range.first (range.last + 1 - range.first)).filter range.contains

variable {range : CodeRange} {code : Nat}

theorem bounds_of_contains (inside : range.contains code = true) :
    range.first ≤ code ∧ code ≤ range.last := by
  simp only [contains, Bool.and_eq_true, decide_eq_true_eq] at inside
  exact inside.1

theorem mem_codes (inside : range.contains code = true) : code ∈ range.codes := by
  obtain ⟨lower, upper⟩ := bounds_of_contains inside
  refine List.mem_filter.mpr ⟨List.mem_range'_1.mpr ⟨lower, ?_⟩, inside⟩
  omega

end CodeRange

namespace CaseTable

/-- The ranges of a table that meet an interval of codes. -/
def near (table : List CodeRange) (first last : Nat) : List CodeRange :=
  table.filter fun range => range.first.ble last && first.ble range.last

theorem has_near
    {table : List CodeRange}
    {first last : Nat}
    {c : Char}
    (lower : first ≤ c.toNat)
    (upper : c.toNat ≤ last) :
    has (near table first last) c = has table c := by
  unfold has near
  rw [List.any_filter]
  refine congrArg table.any (funext fun range => ?_)
  cases inside : range.contains c.toNat with
  | false => exact Bool.and_false _
  | true =>
      obtain ⟨above, below⟩ := CodeRange.bounds_of_contains inside
      have meets : range.first ≤ last ∧ first ≤ range.last := by omega
      rw [Nat.ble_eq_true_of_le meets.1, Nat.ble_eq_true_of_le meets.2]
      rfl

/-- Whether one range of a table has all codes of an interval. -/
def covers (table : List CodeRange) (first last : Nat) : Bool :=
  table.any fun range => last.ble range.last && (range.first.ble first && range.step.beq 1)

theorem has_of_covers
    {table : List CodeRange}
    {first last : Nat}
    {c : Char}
    (covered : covers table first last = true)
    (lower : first ≤ c.toNat)
    (upper : c.toNat ≤ last) :
    has table c = true := by
  obtain ⟨range, listed, covered⟩ := List.any_eq_true.mp covered
  simp only [Bool.and_eq_true, Nat.ble_eq] at covered
  obtain ⟨below, above, step⟩ := covered
  have one : range.step = 1 := Nat.eq_of_beq_eq_true step
  have bounds : range.first ≤ c.toNat ∧ c.toNat ≤ range.last := by omega
  refine List.any_eq_true.mpr ⟨range, listed, ?_⟩
  simp [CodeRange.contains, bounds, one, Nat.mod_one]

/-- A valid code is that of its character. -/
theorem toNat_ofNat {code : Nat} (isChar : code.isValidChar) :
    (Char.ofNat code).toNat = code := by
  rw [Char.ofNat, dif_pos isChar]
  rfl

/-- The codes of a shift are in a table just if their images are. Where one range has all
codes and one has all images, that is seen at once. -/
def Keeps (table : List CodeRange) (shift : CodeShift) : Prop :=
  let sources := near table shift.range.first shift.range.last
  let targets := near table shift.image (shift.apply shift.range.last)
  (shift.apply shift.range.last < 0xD800 ∨
      0xDFFF < shift.image ∧ shift.apply shift.range.last < 0x110000) ∧
    ((covers table shift.range.first shift.range.last &&
        covers table shift.image (shift.apply shift.range.last)) = true ∨
      ∀ code ∈ shift.range.codes,
        has targets (Char.ofNat (shift.apply code)) = has sources (Char.ofNat code))

instance (table : List CodeRange) (shift : CodeShift) : Decidable (Keeps table shift) :=
  inferInstanceAs (Decidable (_ ∧ (_ ∨ ∀ code ∈ shift.range.codes, _)))

theorem Keeps.has_apply
    {table : List CodeRange}
    {shift : CodeShift}
    (keeps : Keeps table shift)
    {c : Char}
    (inside : shift.range.contains c.toNat = true) :
    has table (Char.ofNat (shift.apply c.toNat)) = has table c := by
  obtain ⟨above, below⟩ := CodeRange.bounds_of_contains inside
  have first : shift.image ≤ shift.apply c.toNat := Nat.le_add_right _ _
  have last : shift.apply c.toNat ≤ shift.apply shift.range.last :=
    Nat.add_le_add_left (Nat.sub_le_sub_right below _) _
  obtain ⟨valid, same⟩ := keeps
  have isChar : (shift.apply c.toNat).isValidChar := by
    unfold Nat.isValidChar
    omega
  have isCode := toNat_ofNat isChar
  have lower := isCode.symm ▸ first
  have upper := isCode.symm ▸ last
  rcases same with covered | same
  · obtain ⟨source, target⟩ := (Bool.and_eq_true _ _).mp covered
    rw [has_of_covers source above below, has_of_covers target lower upper]
  · have equal := same c.toNat (CodeRange.mem_codes inside)
    rw [Char.ofNat_toNat] at equal
    rw [← has_near lower upper, equal, has_near above below]

variable {shifts : List CodeShift} {expansions : List (Nat × List Nat)}

/-- A character has the image of its row among the expansions, that of its row among the
shifts, or itself. -/
theorem image_cases (c : Char) :
    (∃ row ∈ expansions, row.1 = c.toNat ∧
        image shifts expansions c = row.2.map Char.ofNat) ∨
      (∃ shift ∈ shifts, shift.range.contains c.toNat = true ∧
        image shifts expansions c = [Char.ofNat (shift.apply c.toNat)]) ∨
      image shifts expansions c = [c] := by
  unfold image
  cases expanded : expansions.find? fun row => row.1 == c.toNat with
  | some row =>
      have isCode := List.find?_some expanded
      exact .inl ⟨row, List.mem_of_find?_eq_some expanded, eq_of_beq isCode, rfl⟩
  | none =>
      cases shifted : shifts.find? fun shift => shift.range.contains c.toNat with
      | some shift =>
          have inside := List.find?_some shifted
          exact .inr (.inl ⟨shift, List.mem_of_find?_eq_some shifted, inside, rfl⟩)
      | none => exact .inr (.inr rfl)

/-- A test of texts that asks of one character whether it is in a table comes out for the
image of a character as for the character, where it does for the rows. -/
theorem test_image
    {table : List CodeRange}
    (test : Text → Bool)
    (single : ∀ c, test [c] = has table c)
    (shifted : ∀ shift ∈ shifts, Keeps table shift)
    (expanded : ∀ row ∈ expansions,
      test (row.2.map Char.ofNat) = has table (Char.ofNat row.1))
    (c : Char) :
    test (image shifts expansions c) = has table c := by
  rcases @image_cases shifts expansions c with
    ⟨row, listed, isCode, isImage⟩ | ⟨shift, listed, inside, isImage⟩ | isImage
  · rw [isImage, expanded row listed, isCode, Char.ofNat_toNat]
  · rw [isImage, single, (shifted shift listed).has_apply inside]
  · rw [isImage, single]

end CaseTable

/-! ## Identifiers -/

namespace Identifier

/-- Codes that may stand first in an identifier. -/
def startCodes : List CodeRange :=
  [⟨0x24, 0x24, 1⟩, ⟨0x5F, 0x5F, 1⟩] ++ IdentifierTable.idStart

/-- Codes that may stand behind the first of an identifier; among them are the joiners, which
have no width. -/
def partCodes : List CodeRange :=
  [⟨0x24, 0x24, 1⟩, ⟨0x200C, 0x200D, 1⟩] ++
    (IdentifierTable.idStart ++ IdentifierTable.idExtend)

/-- Whether a character may stand first. -/
def isStart (c : Char) : Bool :=
  CaseTable.has startCodes c

/-- Whether a character may stand behind the first. -/
def isPart (c : Char) : Bool :=
  CaseTable.has partCodes c

theorem isPart_of_isStart {c : Char} (start : isStart c = true) : isPart c = true := by
  obtain ⟨range, listed, inside⟩ := List.any_eq_true.mp start
  have underscore : (⟨0x5F, 0x5F, 1⟩ : CodeRange) ∈ IdentifierTable.idExtend := by
    decide
  have listedToo : range ∈ partCodes := by
    rcases List.mem_append.mp listed with alone | letter
    · rcases List.mem_pair.mp alone with rfl | rfl
      · exact List.mem_cons_self
      · exact List.mem_append_right _ (List.mem_append_right _ underscore)
    · exact List.mem_append_right _ (List.mem_append_left _ letter)
  exact List.any_eq_true.mpr ⟨range, listedToo, inside⟩

end Identifier

/-- An identifier name of ECMAScript, without escapes. -/
structure IsIdentifier (name : Text) : Prop where
  start : ∃ c ∈ name.head?, Identifier.isStart c = true
  parts : ∀ c ∈ name.tail, Identifier.isPart c = true

namespace Identifier

/-- The first character may stand behind others as well. -/
theorem isIdentifier_iff (name : Text) :
    IsIdentifier name ↔ name.head?.any isStart = true ∧ name.all isPart = true := by
  rw [List.all_eq_true, Option.any_eq_true]
  constructor
  · intro identifier
    refine ⟨identifier.start, ?_⟩
    obtain ⟨first, isFirst, start⟩ := identifier.start
    obtain ⟨rest, rfl⟩ := List.head?_eq_some_iff.mp isFirst
    exact List.forall_mem_cons.mpr ⟨isPart_of_isStart start, identifier.parts⟩
  · rintro ⟨start, parts⟩
    exact ⟨start, fun c present => parts c (List.mem_of_mem_tail present)⟩

instance (name : Text) : Decidable (IsIdentifier name) :=
  decidable_of_iff _ (isIdentifier_iff name).symm

/-! ## In lower and upper case -/

open Text

theorem all_isPart_lowerChar (c : Char) : (lowerChar c).all isPart = isPart c :=
  CaseTable.test_image (fun text => text.all isPart) (fun c => Bool.and_true (isPart c))
    (by decide +kernel) (by decide +kernel) c

theorem all_isPart_upperChar (c : Char) : (upperChar c).all isPart = isPart c := by
  have covered : ∀ row ∈ CaseTable.upperExpansions, ∀ code ∈ row.1 :: row.2,
      CaseTable.covers partCodes code code = true ∧ (Char.ofNat code).toNat = code := by
    decide +kernel
  refine CaseTable.test_image (fun text => text.all isPart)
    (fun c => Bool.and_true (isPart c)) (by decide +kernel) (fun row listed => ?_) c
  have part : ∀ code ∈ row.1 :: row.2, isPart (Char.ofNat code) = true := by
    intro code present
    obtain ⟨covers, valid⟩ := covered row listed code present
    exact CaseTable.has_of_covers covers (Nat.le_of_eq valid.symm) (Nat.le_of_eq valid)
  obtain ⟨source, images⟩ := List.forall_mem_cons.mp part
  exact (List.all_eq_true.mpr (List.forall_mem_map.mpr images)).trans source.symm

theorem any_isStart_lowerChar (c : Char) : (lowerChar c).head?.any isStart = isStart c :=
  CaseTable.test_image (fun text => text.head?.any isStart) (fun _ => rfl)
    (by decide +kernel) (by decide +kernel) c

end Identifier
end StyleTypings
