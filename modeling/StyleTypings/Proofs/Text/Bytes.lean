import StyleTypings.Glob.Basic
import StyleTypings.Proofs.Text.Cutting

/-!
# The bytes of a text

A text has as many bytes as its size says, and no other text has the same bytes. A byte below
128 is the only byte of the character with its code and occurs in the bytes of no other
character, so wherever it stands among the bytes of a text its character stands in the text.
-/

namespace StyleTypings
namespace Text

@[simp] theorem bytes_nil : bytes [] = [] := rfl

@[simp] theorem bytes_cons (c : Char) (rest : Text) :
    bytes (c :: rest) = String.utf8EncodeChar c ++ bytes rest := List.flatMap_cons

@[simp] theorem bytes_append (front back : Text) :
    bytes (front ++ back) = bytes front ++ bytes back := List.flatMap_append

@[simp] theorem length_bytes (text : Text) : text.bytes.length = text.byteSize := by
  induction text with
  | nil => rfl
  | cons c rest inductionHypothesis =>
      rw [bytes_cons, List.length_append, String.length_utf8EncodeChar, inductionHypothesis,
        byteSize_cons]

/-! ## Reading bytes back -/

/-- The first character is told by the bytes, whatever follows it. -/
theorem eq_of_utf8EncodeChar_append
    {c d : Char}
    {rest others : Bytes}
    (same : String.utf8EncodeChar c ++ rest = String.utf8EncodeChar d ++ others) :
    c = d := by
  have read (char : Char) (behind : Bytes) :
      (String.utf8EncodeChar char ++ behind).toByteArray.utf8DecodeChar? 0 = some char := by
    rw [List.toByteArray_append]
    exact ByteArray.utf8DecodeChar?_utf8EncodeChar_append
  have first := read c rest
  rw [same, read d others] at first
  exact (Option.some.inj first).symm

/-- Where the bytes of one text begin another, the text begins it. -/
theorem exists_append_of_bytes
    {text front : Text}
    {rest : Bytes}
    (begins : text.bytes = front.bytes ++ rest) :
    ∃ back, text = front ++ back ∧ back.bytes = rest := by
  induction front generalizing text with
  | nil => exact ⟨text, rfl, begins⟩
  | cons c others inductionHypothesis =>
      rw [bytes_cons, List.append_assoc] at begins
      cases text with
      | nil =>
          obtain ⟨nothing, -⟩ := List.append_eq_nil_iff.mp begins.symm
          exact absurd nothing String.utf8EncodeChar_ne_nil
      | cons d behind =>
          rw [bytes_cons] at begins
          obtain rfl := eq_of_utf8EncodeChar_append begins
          obtain ⟨back, rfl, isRest⟩ := inductionHypothesis (List.append_cancel_left begins)
          exact ⟨back, rfl, isRest⟩

theorem bytes_injective : Function.Injective bytes := by
  intro text other same
  obtain ⟨back, rfl, nothing⟩ :=
    exists_append_of_bytes (same.trans (List.append_nil other.bytes).symm)
  have size := length_bytes back
  rw [nothing] at size
  rw [byteSize_eq_zero.mp size.symm, List.append_nil]

/-! ## Bytes of single characters -/

/-- A byte below 128 is the only byte of its character. -/
theorem utf8EncodeChar_of_mem
    {c : Char}
    {byte : UInt8}
    (ascii : byte.toNat < 128)
    (among : byte ∈ String.utf8EncodeChar c) :
    String.utf8EncodeChar c = [byte] ∧ c.toNat = byte.toNat := by
  have code : c.toNat = c.val.toNat := rfl
  have wide (n : Nat) : byte = UInt8.ofNat n ↔ byte.toNat = n % 256 := by
    rw [← UInt8.toNat_inj, UInt8.toNat_ofNat']
  rw [code]
  unfold String.utf8EncodeChar at among ⊢
  simp only at among ⊢
  split at among
  · next small =>
      obtain rfl := List.mem_singleton.mp among
      rw [if_pos small]
      refine ⟨rfl, ?_⟩
      rw [UInt8.toNat_ofNat']
      omega
  · -- The bytes of longer characters are 128 or more.
    exfalso
    split at among
    · simp only [List.mem_cons, List.not_mem_nil, wide, or_false] at among
      omega
    · split at among <;>
      · simp only [List.mem_cons, List.not_mem_nil, wide, or_false] at among
        omega

/-- A byte below 128 stands among the bytes of a text just where its character stands. -/
theorem exists_char_of_bytes
    {text : Text}
    {byte : UInt8}
    {before after : Bytes}
    (ascii : byte.toNat < 128)
    (split : text.bytes = before ++ byte :: after) :
    ∃ (front : Text) (c : Char) (back : Text), text = front ++ c :: back ∧
      front.bytes = before ∧ back.bytes = after ∧ c.toNat = byte.toNat := by
  induction text generalizing before with
  | nil => simp at split
  | cons d rest inductionHypothesis =>
      rw [bytes_cons] at split
      rcases cases_of_append_eq_append_cons split with
        ⟨middle, own, behind⟩ | ⟨middle, further, inRest⟩
      · obtain ⟨alone, code⟩ := utf8EncodeChar_of_mem ascii
          (own ▸ List.mem_append_right _ List.mem_cons_self)
        rw [alone] at own
        obtain ⟨nothing, rest'⟩ : before = [] ∧ middle = [] := by
          cases before with
          | nil => exact ⟨rfl, (List.cons.inj own).2.symm⟩
          | cons first others => simp at own
        subst nothing rest'
        exact ⟨[], d, rest, rfl, rfl, behind.symm, code⟩
      · obtain ⟨front, c, back, rfl, isFront, isBack, code⟩ := inductionHypothesis inRest
        exact ⟨d :: front, c, back, rfl, by rw [bytes_cons, isFront, further], isBack, code⟩

end Text
end StyleTypings
