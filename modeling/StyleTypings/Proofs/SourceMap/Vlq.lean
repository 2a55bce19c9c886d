import Mathlib.Algebra.Group.Nat.Defs
import StyleTypings.SourceMap.Vlq

/-!
# Variable-length quantities read back

Reading the digits of a number adds it, shifted by the digits already read, to
what has been read so far. So the integers written one after the other are the
integers read, as long as each of them has at most thirteen digits.
-/

namespace StyleTypings
namespace Vlq

/-- Each of the 64 characters has its own number. -/
theorem base64Value?_base64Char :
    ∀ value < 64, base64Value? (base64Char value) = some value := by
  decide +kernel

/-- A base 64 character stands for one digit. -/
theorem digitsOf_base64Char {value : Nat} (small : value < 64) :
    digitsOf (base64Char value) = [⟨value % 32, 32 ≤ value⟩] := by
  unfold digitsOf
  rw [base64Value?_base64Char value small]

/-- The sign moved to the lowest bit moves back. -/
@[simp] theorem unfold_fold (value : Int) : unfold (fold value) = value := by
  unfold unfold fold
  split <;> split <;> omega

theorem fold_le (value : Int) : fold value ≤ 2 * value.natAbs + 1 := by
  unfold fold
  split <;> omega

/-- Digits of a number are read from where the reading stands; the number counts
by the weight of its first digit. -/
theorem decodeFrom_encodeFolded
    (folded count value : Nat)
    (rest : List Digit)
    (open_ : count < maxDigits)
    (small : folded < 32 ^ (maxDigits - count)) :
    decodeFrom count value ((encodeFolded folded).flatMap digitsOf ++ rest) =
      (decodeFrom 0 0 rest).map (unfold (value + folded * 32 ^ count) :: ·) := by
  induction folded using Nat.strongRecOn generalizing count value with
  | ind folded inductionHypothesis =>
      have notFull : ¬ maxDigits ≤ count := by omega
      rw [encodeFolded]
      by_cases oneDigit : folded < 32
      · rw [if_pos oneDigit, List.flatMap_singleton,
          digitsOf_base64Char (by omega), List.singleton_append, decodeFrom,
          if_neg notFull]
        have bits : folded % 32 = folded := Nat.mod_eq_of_lt oneDigit
        have last : ¬ 32 ≤ folded := by omega
        simp only [last, decide_false, Bool.false_eq_true, if_false, bits]
        cases decodeFrom 0 0 rest <;> rfl
      · have more : 32 ≤ folded % 32 + 32 := by omega
        have bits : (folded % 32 + 32) % 32 = folded % 32 := by omega
        rw [if_neg oneDigit, List.flatMap_cons, digitsOf_base64Char (by omega),
          List.append_assoc, List.singleton_append, decodeFrom, if_neg notFull]
        simp only [more, decide_true, if_true, bits]
        have notLast : count + 1 < maxDigits := by
          by_cases last : count + 1 = maxDigits
          · have one : maxDigits - count = 1 := by omega
            rw [one] at small
            omega
          · omega
        have remaining : maxDigits - count = maxDigits - (count + 1) + 1 := by omega
        have smaller : folded / 32 < 32 ^ (maxDigits - (count + 1)) := by
          rw [remaining, Nat.pow_succ] at small
          exact Nat.div_lt_of_lt_mul (by omega)
        rw [inductionHypothesis (folded / 32) (by omega) (count + 1) _ notLast smaller]
        have total : folded % 32 * Nat.pow 32 count +
            folded / 32 * 32 ^ (count + 1) = folded * 32 ^ count := by
          calc
            folded % 32 * 32 ^ count + folded / 32 * 32 ^ (count + 1) =
                (folded % 32 + folded / 32 * 32) * 32 ^ count := by
              rw [Nat.pow_succ, Nat.add_mul, Nat.mul_assoc (folded / 32),
                Nat.mul_comm 32]
            _ = folded * 32 ^ count := by
              rw [Nat.mod_add_div']
        rw [Nat.add_assoc, total]

/-- An integer short enough for thirteen digits. -/
def Fits (value : Int) : Prop :=
  fold value < 32 ^ maxDigits

theorem decodeFrom_encode
    {value : Int}
    (rest : List Digit)
    (fits : Fits value) :
    decodeFrom 0 0 ((encode value).flatMap digitsOf ++ rest) =
      (decodeFrom 0 0 rest).map (value :: ·) := by
  unfold encode
  rw [decodeFrom_encodeFolded (fold value) 0 0 rest (by decide) fits]
  simp

/-- Integers written one after the other are read back in order. -/
theorem decodeFrom_flatMap_encode
    {values : List Int}
    (fit : ∀ value ∈ values, Fits value) :
    decodeFrom 0 0 ((values.flatMap encode).flatMap digitsOf) = .ok values := by
  induction values with
  | nil => rfl
  | cons value rest inductionHypothesis =>
      have restFits := inductionHypothesis fun other present =>
        fit other (List.mem_cons_of_mem value present)
      rw [List.flatMap_cons, List.flatMap_append,
        decodeFrom_encode _ (fit value List.mem_cons_self), restFits]
      rfl

theorem decode_flatMap_encode
    {values : List Int}
    (nonempty : values ≠ [])
    (fit : ∀ value ∈ values, Fits value) :
    decode (values.flatMap encode) = .ok values := by
  unfold decode
  rw [decodeFrom_flatMap_encode fit]
  cases values with
  | nil => exact absurd rfl nonempty
  | cons value rest => rfl

/-! ## Characters of a number -/

/-- A number is written in characters of the alphabet, at least one. -/
theorem encodeFolded_ne_nil (folded : Nat) : encodeFolded folded ≠ [] := by
  rw [encodeFolded]
  split <;> simp

theorem base64Char_mem_alphabet (value : Nat) : base64Char value ∈ alphabet := by
  unfold base64Char
  rw [List.getD_eq_getElem?_getD]
  cases found : alphabet[value]? with
  | none => decide
  | some c => exact List.mem_of_getElem? found

theorem mem_alphabet_of_mem_encodeFolded
    {folded : Nat}
    {c : Char}
    (written : c ∈ encodeFolded folded) :
    c ∈ alphabet := by
  induction folded using Nat.strongRecOn with
  | ind folded inductionHypothesis =>
      rw [encodeFolded] at written
      by_cases oneDigit : folded < 32
      · rw [if_pos oneDigit, List.mem_singleton] at written
        exact written ▸ base64Char_mem_alphabet folded
      · rw [if_neg oneDigit] at written
        rcases List.mem_cons.mp written with rfl | later
        · exact base64Char_mem_alphabet _
        · exact inductionHypothesis (folded / 32) (by omega) later

/-- Neither the comma between segments nor the semicolon between lines is a
character of a number. -/
theorem comma_notMem_encode (value : Int) : ',' ∉ encode value := fun written =>
  absurd (mem_alphabet_of_mem_encodeFolded written) (by decide +kernel)

theorem semicolon_notMem_encode (value : Int) : ';' ∉ encode value := fun written =>
  absurd (mem_alphabet_of_mem_encodeFolded written) (by decide +kernel)

end Vlq
end StyleTypings
