import StyleTypings.Glob.Parser
import StyleTypings.Proofs.Glob.Matching

/-!
# Texts written out as globs

Escaping puts the signs of a glob in brackets and leaves all other characters as they are, so a
text without a backslash is read back character by character and matches itself alone. A
backslash is left as it is too, but it is read as hiding the next character. The glob of a text
with a backslash therefore breaks off where the text has a backslash that the glob no longer
has: it matches nothing that begins with the text, whatever else it may match.
-/

namespace StyleTypings
namespace Glob

/-- Whether a character is put in brackets. -/
def isSign (char : Char) : Bool :=
  char == '?' || char == '*' || char == '[' || char == ']' || char == '{' || char == '}'

/-- The part that an escaped character is read as. -/
def escapedPart (char : Char) : GlobPart :=
  if isSign char then .bytes false [(char, char)] else .literal char

theorem escape_cons (char : Char) (rest : Text) :
    escape (char :: rest) = (if isSign char then ['[', char, ']'] else [char]) ++ escape rest :=
  List.flatMap_cons

/-! ## What escaped characters match -/

theorem isSign_iff {char : Char} :
    isSign char = true ↔
      char = '?' ∨ char = '*' ∨ char = '[' ∨ char = ']' ∨ char = '{' ∨ char = '}' := by
  simp [isSign, or_assoc]

/-- A class of one character matches the character, if that is written with one byte. -/
theorem mem_remainders_bytes
    {char : Char}
    {byte : UInt8}
    {path left : Bytes}
    (single : String.utf8EncodeChar char = [byte]) :
    left ∈ remainders (.bytes false [(char, char)]) path ↔
      path = String.utf8EncodeChar char ++ left := by
  have inside (other : UInt8) : inRanges [(char, char)] other = true ↔ other = byte := by
    simp only [inRanges, List.flatMap_singleton, byteRanges, if_pos, single, List.map_singleton,
      List.any_cons, List.any_nil, Bool.or_false, Bool.and_eq_true, decide_eq_true_eq]
    refine ⟨fun ⟨low, high⟩ => UInt8.le_antisymm high low, ?_⟩
    rintro rfl
    exact ⟨UInt8.le_refl _, UInt8.le_refl _⟩
  rw [remainders, single]
  cases path with
  | nil => simp [afterOne]
  | cons other rest =>
      have test : (inRanges [(char, char)] other != false) = true ↔ other = byte := by
        simpa using inside other
      by_cases same : other = byte
      · rw [afterOne, if_pos (test.mpr same), same]
        simp [eq_comm]
      · rw [afterOne, if_neg (same ∘ test.mp)]
        simp [same]

theorem mem_remainders_escapedPart {char : Char} {path left : Bytes} :
    left ∈ remainders (escapedPart char) path ↔ path = String.utf8EncodeChar char ++ left := by
  unfold escapedPart
  split
  · next sign =>
      rcases isSign_iff.mp sign with rfl | rfl | rfl | rfl | rfl | rfl <;>
        exact mem_remainders_bytes rfl
  · exact mem_remainders_literal

/-- An escaped text matches just the text. -/
theorem leaves_escaped {text : Text} {path left : Bytes} :
    Leaves (text.map escapedPart) path left ↔ path = text.bytes ++ left := by
  induction text generalizing path with
  | nil => simpa using leaves_nil.trans eq_comm
  | cons c rest inductionHypothesis =>
      rw [List.map_cons, leaves_cons]
      simp only [mem_remainders_escapedPart, inductionHypothesis, Text.bytes_cons,
        List.append_assoc, exists_eq_right]

/-! ## Reading escaped characters -/

/-- The state after an escaped character. -/
def Reader.escaped (reader : Reader) (char : Char) : Reader :=
  (reader.push (escapedPart char)).note (if isSign char then ']' else char)

/-- A character other than a backslash is read back. -/
theorem readFrom_escaped
    {reader : Reader}
    {char : Char}
    (outside : reader.choices = [])
    (plain : char ≠ '\\')
    (bound : Nat)
    (rest : Text) :
    readFrom (bound + 1) reader
        ((if isSign char then ['[', char, ']'] else [char]) ++ rest) =
      readFrom bound (reader.escaped char) rest := by
  by_cases sign : isSign char = true
  · rcases isSign_iff.mp sign with rfl | rfl | rfl | rfl | rfl | rfl <;>
      rfl
  · have took : reader.take char rest = .ok (reader.escaped char, rest) := by
      have whole : reader.escaped char = (reader.push (.literal char)).note char := by
        simp [Reader.escaped, escapedPart, sign]
      rw [whole]
      unfold Reader.take
      split
      case h_6 => simp [Reader.comma, outside]
      case h_7 => exact absurd rfl plain
      case h_8 => rfl
      all_goals exact absurd rfl sign
    rw [if_neg sign, List.singleton_append, readFrom, took]

/-- A text without a backslash is read back part by part. -/
theorem readFrom_escape
    {text : Text}
    {reader : Reader}
    (outside : reader.choices = [])
    (plain : '\\' ∉ text) :
    ∃ previous, ∀ bound rest,
      readFrom (text.length + bound) reader (escape text ++ rest) =
        readFrom bound ⟨(text.map escapedPart).reverse ++ reader.branch, [], previous⟩ rest := by
  induction text generalizing reader with
  | nil =>
      obtain ⟨branch, choices, previous⟩ := reader
      obtain rfl : choices = [] := outside
      exact ⟨previous, fun bound rest => by rw [List.length_nil, Nat.zero_add]; rfl⟩
  | cons c others inductionHypothesis =>
      obtain ⟨first, further⟩ := not_or.mp (mt List.mem_cons.mpr plain)
      obtain ⟨previous, reads⟩ := @inductionHypothesis (reader.escaped c) outside further
      refine ⟨previous, fun bound rest => ?_⟩
      have steps : (c :: others).length + bound = others.length + bound + 1 := by
        rw [List.length_cons, Nat.add_right_comm]
      rw [steps, escape_cons, List.append_assoc,
        readFrom_escaped outside (fun same => first same.symm), reads, List.map_cons,
        List.reverse_cons, List.append_assoc]
      rfl

theorem length_le_escape (text : Text) : text.length ≤ (escape text).length := by
  induction text with
  | nil => exact Nat.le_refl 0
  | cons c rest inductionHypothesis =>
      rw [escape_cons, List.length_append, List.length_cons]
      split <;> simp <;> omega

/-- A text without a backslash is read as a glob that matches just the text. -/
theorem ofText_escape {text : Text} (plain : '\\' ∉ text) :
    ofText (escape text) = .ok (text.map escapedPart) := by
  obtain ⟨previous, reads⟩ := @readFrom_escape text Reader.start rfl plain
  obtain ⟨extra, bound⟩ := Nat.exists_eq_add_of_le (length_le_escape text)
  rw [ofText, bound, Nat.add_assoc, ← List.append_nil (escape text), reads]
  simp [readFrom, Reader.start]

theorem isEverything_iff {glob : Glob} : isEverything glob = true ↔ glob = [.treeStart] := by
  unfold isEverything
  split <;> simp_all

theorem escapedPart_ne_treeStart (char : Char) : escapedPart char ≠ .treeStart := by
  unfold escapedPart
  split <;> exact nofun

/-- The glob of a text without a backslash matches no other text. -/
theorem doesMatch_escaped_iff {text other : Text} :
    doesMatch (text.map escapedPart) other = true ↔ other = text := by
  have several : ¬ isEverything (text.map escapedPart) = true := by
    rw [isEverything_iff, List.map_eq_singleton_iff]
    rintro ⟨c, -, same⟩
    exact escapedPart_ne_treeStart c same
  rw [doesMatch_iff, or_iff_right several, leaves_escaped, List.append_nil]
  exact Text.bytes_injective.eq_iff

/-! ## Backslashes -/

/-- The byte of a backslash. -/
def backslash : UInt8 :=
  92

/-- A part matches nothing that begins with a backslash. -/
def Refuses (part : GlobPart) : Prop :=
  ∀ path, remainders part (backslash :: path) = []

/-- A part that matches one other character refuses a backslash. -/
theorem refuses_of_ne
    {part : GlobPart}
    {char : Char}
    (fits : ∀ path left, left ∈ remainders part path ↔
      path = String.utf8EncodeChar char ++ left)
    (plain : char ≠ '\\') :
    Refuses part := by
  intro path
  refine List.eq_nil_iff_forall_not_mem.mpr fun left among => plain ?_
  have split := (fits _ _).mp among
  have own : backslash ∈ String.utf8EncodeChar char := by
    obtain ⟨byte, others, bytes⟩ := List.exists_cons_of_ne_nil (@String.utf8EncodeChar_ne_nil char)
    rw [bytes] at split ⊢
    exact (List.cons.inj split).1 ▸ List.mem_cons_self
  exact Char.toNat_inj.mp (Text.utf8EncodeChar_of_mem (by decide) own).2

theorem refuses_escapedPart {char : Char} (plain : char ≠ '\\') : Refuses (escapedPart char) :=
  refuses_of_ne (fun _ _ => mem_remainders_escapedPart) plain

theorem refuses_literal {char : Char} (plain : char ≠ '\\') : Refuses (.literal char) :=
  refuses_of_ne (fun _ _ => mem_remainders_literal) plain

theorem refuses_tree (atEnd : Bool) :
    Refuses (if atEnd then .treeEnd else .treeInside) := by
  intro path
  cases atEnd <;> rfl

/-- Parts that match a text up to one of its backslashes, where the next part matches nothing. -/
def BreaksOff (parts : List GlobPart) (text : Text) : Prop :=
  ∃ front back rest, text = front ++ '\\' :: back ∧ parts = front.map escapedPart ++ rest ∧
    ∀ part, rest.head? = some part → Refuses part

/-- What such parts match begins like the text, but not with the backslash. -/
theorem BreaksOff.exists_front
    {parts : Glob}
    {text : Text}
    (breaks : BreaksOff parts text) :
    ∃ front back, text = front ++ '\\' :: back ∧ ∀ other, doesMatch parts other = true →
      front.bytes <+: other.bytes ∧ ¬ front ++ ['\\'] <+: other := by
  obtain ⟨front, back, rest, isText, rfl, refuses⟩ := breaks
  refine ⟨front, back, isText, fun other isMatch => ?_⟩
  have leaves : Leaves (front.map escapedPart ++ rest) other.bytes [] := by
    refine (doesMatch_iff.mp isMatch).resolve_left fun everything => ?_
    rw [isEverything_iff] at everything
    cases front with
    | nil =>
        obtain rfl : rest = [.treeStart] := everything
        exact absurd (refuses _ rfl []) (List.cons_ne_nil _ _)
    | cons c others => exact escapedPart_ne_treeStart c (List.cons.inj everything).1
  obtain ⟨between, begins, ends⟩ := leaves_append.mp leaves
  rw [leaves_escaped] at begins
  refine ⟨⟨between, begins.symm⟩, ?_⟩
  rintro ⟨more, rfl⟩
  rw [List.append_assoc, Text.bytes_append] at begins
  have left : between = backslash :: Text.bytes more := (List.append_cancel_left begins).symm
  cases rest with
  | nil => exact absurd (leaves_nil.mp ends).symm (left ▸ List.cons_ne_nil _ _)
  | cons part others =>
      obtain ⟨next, matched, -⟩ := leaves_cons.mp ends
      rw [left, refuses part rfl] at matched
      exact absurd matched List.not_mem_nil

/-- Such parts match nothing that begins with the text. -/
theorem BreaksOff.not_doesMatch
    {parts : Glob}
    {text : Text}
    (breaks : BreaksOff parts text)
    (more : Text) :
    doesMatch parts (text ++ more) = false := by
  obtain ⟨front, back, rfl, unmatched⟩ := breaks.exists_front
  refine Bool.eq_false_iff.mpr fun isMatch => (unmatched _ isMatch).2 ⟨back ++ more, ?_⟩
  simp

/-! ## Reading on -/

/-- A branch, last part first, still has the parts before a part that fits. -/
def Stays (fits : GlobPart → Prop) (before branch : List GlobPart) : Prop :=
  ∃ behind part, branch = behind ++ part :: before ∧ fits part

/-- Two stars fit wherever they take the place of a part. -/
def FitsTrees (fits : GlobPart → Prop) : Prop :=
  ∀ atEnd : Bool, fits (if atEnd then .treeEnd else .treeInside)

section

variable {fits : GlobPart → Prop} {before branch : List GlobPart} {last : GlobPart}

theorem Stays.cons (stays : Stays fits before branch) (part : GlobPart) :
    Stays fits before (part :: branch) := by
  obtain ⟨behind, fitting, rfl, isFit⟩ := stays
  exact ⟨part :: behind, fitting, rfl, isFit⟩

/-- Two stars in place of the last part fit too. -/
theorem Stays.replace
    (stays : Stays fits before (last :: branch))
    (trees : FitsTrees fits)
    (atEnd : Bool) :
    Stays fits before ((if atEnd then .treeEnd else .treeInside) :: branch) := by
  obtain ⟨_ | ⟨first, behind⟩, fitting, split, isFit⟩ := stays
  · exact ⟨[], _, by rw [(List.cons.inj split).2]; rfl, trees atEnd⟩
  · exact ⟨_ :: behind, fitting, by rw [(List.cons.inj split).2]; rfl, isFit⟩

end

namespace Reader

variable {reader next : Reader} {fits : GlobPart → Prop} {before : List GlobPart}

/-- The branch outside of all choices so far. -/
def outermost (reader : Reader) : List GlobPart :=
  ((reader.choices.map Prod.snd).getLast?).getD reader.branch

theorem stays_push (stays : Stays fits before reader.outermost) (part : GlobPart) :
    Stays fits before (reader.push part).outermost := by
  obtain ⟨branch, _ | ⟨choice, outer⟩, previous⟩ := reader
  · exact stays.cons part
  · exact stays

/-- Outside of all choices a part that fits is there to stay. -/
theorem stays_push_of_fits
    {part : GlobPart}
    (outside : reader.choices = [])
    (isFit : fits part) :
    Stays fits reader.branch (reader.push part).outermost := by
  have outermost : (reader.push part).outermost = part :: reader.branch := by
    simp [Reader.outermost, Reader.push, outside]
  exact ⟨[], part, outermost, isFit⟩

theorem stays_pushTree
    (trees : FitsTrees fits)
    (stays : Stays fits before reader.outermost)
    (atEnd : Bool) :
    Stays fits before (reader.pushTree atEnd).outermost := by
  unfold pushTree
  split
  · exact stays
  · exact stays
  · next last branch _ _ isBranch =>
      obtain ⟨_, _ | ⟨choice, outer⟩, previous⟩ := reader
      · obtain rfl : _ = last :: branch := isBranch
        exact stays.replace trees atEnd
      · exact stays
  · exact stays

theorem stays_openChoice (stays : Stays fits before reader.outermost) :
    Stays fits before reader.openChoice.outermost := by
  obtain ⟨branch, _ | ⟨choice, outer⟩, previous⟩ := reader <;> exact stays

theorem stays_comma (stays : Stays fits before reader.outermost) :
    Stays fits before reader.comma.outermost := by
  obtain ⟨branch, _ | ⟨⟨branches, around⟩, _ | ⟨choice, outer⟩⟩, previous⟩ := reader
  · exact stays.cons _
  · exact stays
  · exact stays

theorem stays_closeChoice
    (closed : reader.closeChoice = .ok next)
    (stays : Stays fits before reader.outermost) :
    Stays fits before next.outermost := by
  obtain ⟨branch, _ | ⟨⟨branches, around⟩, _ | ⟨choice, outer⟩⟩, previous⟩ := reader
  · cases closed
  · obtain rfl := Except.ok.inj closed
    exact stays.cons _
  · obtain rfl := Except.ok.inj closed
    exact stays

theorem stays_twoStars
    (trees : FitsTrees fits)
    (stays : Stays fits before reader.outermost)
    (rest : Text) :
    Stays fits before (reader.twoStars rest).1.outermost ∧
      (reader.twoStars rest).2.length ≤ rest.length := by
  have literal := stays_push (stays_push stays .star) .star
  unfold twoStars
  simp only
  split
  · split
    · exact ⟨stays_push stays _, Nat.le_refl _⟩
    · exact ⟨stays_push stays _, Nat.le_succ _⟩
    · exact ⟨literal, Nat.le_refl _⟩
  · split
    · split
      · exact ⟨stays_pushTree trees stays true, Nat.le_refl _⟩
      · exact ⟨stays_pushTree trees stays false, Nat.le_succ _⟩
      · split
        · exact ⟨stays_pushTree trees stays true, Nat.le_refl _⟩
        · exact ⟨literal, Nat.le_refl _⟩
    · exact ⟨literal, Nat.le_refl _⟩

end Reader

theorem length_le_of_readClass
    {reader : ClassReader}
    {text after : Text}
    {ranges : List (Char × Char)}
    (read : readClass reader text = .ok (ranges, after)) :
    after.length ≤ text.length := by
  induction text generalizing reader with
  | nil => cases read
  | cons c rest inductionHypothesis =>
      rw [readClass] at read
      split at read
      · obtain ⟨-, rfl⟩ := Prod.mk.inj (Except.ok.inj read)
        exact Nat.le_succ _
      · split at read
        · cases read
        · exact Nat.le_succ_of_le (inductionHypothesis read)

theorem length_splitNegation_le (text : Text) : (splitNegation text).2.length ≤ text.length := by
  unfold splitNegation
  split
  · exact Nat.le_succ _
  · exact Nat.le_succ _
  · exact Nat.le_refl _

/-- One step of reading keeps a part that fits, and takes at least one character. -/
theorem stays_take
    {reader next : Reader}
    {fits : GlobPart → Prop}
    {before : List GlobPart}
    {char : Char}
    {rest after : Text}
    (trees : FitsTrees fits)
    (took : reader.take char rest = .ok (next, after))
    (stays : Stays fits before reader.outermost) :
    Stays fits before next.outermost ∧ after.length ≤ rest.length := by
  unfold Reader.take at took
  split at took
  · obtain ⟨rfl, rfl⟩ := Prod.mk.inj (Except.ok.inj took)
    exact ⟨Reader.stays_push stays .any, Nat.le_refl _⟩
  · split at took
    · next behind =>
        have pair := Except.ok.inj took
        obtain ⟨kept, shorter⟩ := Reader.stays_twoStars trees stays behind
        rw [pair] at kept shorter
        exact ⟨kept, Nat.le_succ_of_le shorter⟩
    · obtain ⟨rfl, rfl⟩ := Prod.mk.inj (Except.ok.inj took)
      exact ⟨Reader.stays_push stays .star, Nat.le_refl _⟩
  · cases read : readClass ⟨[], true, false⟩ (splitNegation rest).2 with
    | error problem =>
        simp only [read] at took
        cases took
    | ok found =>
        simp only [read] at took
        obtain ⟨rfl, rfl⟩ := Prod.mk.inj (Except.ok.inj took)
        exact ⟨Reader.stays_push stays _,
          Nat.le_trans (length_le_of_readClass read) (length_splitNegation_le rest)⟩
  · obtain ⟨rfl, rfl⟩ := Prod.mk.inj (Except.ok.inj took)
    exact ⟨Reader.stays_openChoice stays, Nat.le_refl _⟩
  · cases closed : reader.closeChoice with
    | error problem =>
        rw [closed] at took
        cases took
    | ok inner =>
        rw [closed] at took
        obtain ⟨rfl, rfl⟩ := Prod.mk.inj (Except.ok.inj took)
        have kept := Reader.stays_closeChoice closed stays
        exact ⟨kept, Nat.le_refl _⟩
  · obtain ⟨rfl, rfl⟩ := Prod.mk.inj (Except.ok.inj took)
    exact ⟨Reader.stays_comma stays, Nat.le_refl _⟩
  · split at took
    · cases took
    · obtain ⟨rfl, rfl⟩ := Prod.mk.inj (Except.ok.inj took)
      exact ⟨Reader.stays_push stays _, Nat.le_succ _⟩
  · obtain ⟨rfl, rfl⟩ := Prod.mk.inj (Except.ok.inj took)
    exact ⟨Reader.stays_push stays _, Nat.le_refl _⟩

/-- A part that fits stays in the glob to the end. -/
theorem exists_of_readFrom
    {bound : Nat}
    {reader : Reader}
    {fits : GlobPart → Prop}
    {before : List GlobPart}
    {text : Text}
    {glob : Glob}
    (trees : FitsTrees fits)
    (enough : text.length < bound)
    (read : readFrom bound reader text = .ok glob)
    (stays : Stays fits before reader.outermost) :
    ∃ part more, glob = before.reverse ++ part :: more ∧ fits part := by
  induction bound generalizing reader text with
  | zero => exact absurd enough (Nat.not_lt_zero _)
  | succ bound inductionHypothesis =>
      cases text with
      | nil =>
          rw [readFrom] at read
          split at read
          · next closed =>
              obtain rfl := Except.ok.inj read
              obtain ⟨behind, part, branch, isFit⟩ := stays
              have outermost : reader.outermost = reader.branch := by
                simp [Reader.outermost, List.isEmpty_iff.mp closed]
              rw [← outermost, branch]
              exact ⟨part, behind.reverse, by simp, isFit⟩
          · cases read
      | cons c rest =>
          rw [readFrom] at read
          cases took : reader.take c rest with
          | error problem =>
              rw [took] at read
              cases read
          | ok step =>
              rw [took] at read
              obtain ⟨kept, shorter⟩ := stays_take trees took stays
              rw [List.length_cons] at enough
              exact inductionHypothesis (by omega) read kept

/-- Once a part refuses a backslash, the glob breaks off at one. -/
theorem breaksOff_of_stays
    {bound : Nat}
    {reader : Reader}
    {before : List GlobPart}
    {text : Text}
    {glob : Glob}
    (enough : text.length < bound)
    (read : readFrom bound reader text = .ok glob)
    (stays : Stays Refuses before reader.outermost)
    (back : Text) :
    ∃ parts, glob = before.reverse ++ parts ∧ BreaksOff parts ('\\' :: back) := by
  obtain ⟨part, more, rfl, refuses⟩ := exists_of_readFrom refuses_tree enough read stays
  refine ⟨part :: more, rfl, [], back, part :: more, rfl, rfl, fun first isFirst => ?_⟩
  obtain rfl := Option.some.inj isFirst
  exact refuses

/-- A backslash hides the next character, so that the glob goes on with that one. -/
theorem breaksOff_of_hidden
    {bound : Nat}
    {reader : Reader}
    {hidden : Char}
    {after : Text}
    {glob : Glob}
    (outside : reader.choices = [])
    (plain : hidden ≠ '\\')
    (enough : after.length < bound)
    (read : readFrom (bound + 1) reader ('\\' :: hidden :: after) = .ok glob)
    (back : Text) :
    ∃ parts, glob = reader.branch.reverse ++ parts ∧ BreaksOff parts ('\\' :: back) := by
  have stepped : readFrom bound ((reader.push (.literal hidden)).note hidden) after =
      .ok glob := read
  exact breaksOff_of_stays enough stepped
    (Reader.stays_push_of_fits outside (refuses_literal plain)) back

theorem escape_backslash (rest : Text) : escape ('\\' :: rest) = '\\' :: escape rest := rfl

/-- An escaped text begins with no backslash if the text does not. -/
theorem exists_escape_cons {char : Char} (plain : char ≠ '\\') (rest : Text) :
    ∃ first others, escape (char :: rest) = first :: others ∧ first ≠ '\\' := by
  rw [escape_cons]
  split
  · exact ⟨'[', _, rfl, by decide⟩
  · exact ⟨char, _, rfl, plain⟩

/-- A backslash before anything but another one hides what is put there. -/
theorem breaksOff_of_single
    {bound : Nat}
    {reader : Reader}
    {rest more : Text}
    {glob : Glob}
    (outside : reader.choices = [])
    (single : rest.head? ≠ some '\\')
    (ends : ∀ c, more.head? = some c → c = '/')
    (enough : (escape rest ++ more).length < bound)
    (read : readFrom (bound + 1) reader ('\\' :: (escape rest ++ more)) = .ok glob)
    (back : Text) :
    ∃ parts, glob = reader.branch.reverse ++ parts ∧ BreaksOff parts ('\\' :: back) := by
  obtain ⟨hidden, after, shown, plain⟩ : ∃ hidden after,
      escape rest ++ more = hidden :: after ∧ hidden ≠ '\\' := by
    cases rest with
    | nil =>
        cases more with
        | nil => cases read
        | cons slash others => exact ⟨slash, others, rfl, by rw [ends slash rfl]; decide⟩
    | cons c others =>
        have other : c ≠ '\\' := fun same => single (congrArg some same)
        obtain ⟨first, behind, shown, plain⟩ := exists_escape_cons other others
        exact ⟨first, behind ++ more, by rw [shown, List.cons_append], plain⟩
  rw [shown] at read enough
  exact breaksOff_of_hidden outside plain (Nat.lt_of_succ_lt enough) read back

/-- At the end of the text the glob goes on with a slash, or with nothing. -/
theorem breaksOff_of_end
    {bound : Nat}
    {reader : Reader}
    {more : Text}
    {glob : Glob}
    (outside : reader.choices = [])
    (ends : ∀ c, more.head? = some c → c = '/')
    (enough : more.length < bound + 1)
    (read : readFrom (bound + 1) reader more = .ok glob)
    (back : Text) :
    ∃ parts, glob = reader.branch.reverse ++ parts ∧ BreaksOff parts ('\\' :: back) := by
  cases more with
  | nil =>
      have ended : reader.branch.reverse = glob := by
        rw [readFrom, outside] at read
        exact Except.ok.inj read
      exact ⟨[], by rw [ended, List.append_nil], [], back, [], rfl, rfl, by simp⟩
  | cons slash others =>
      obtain rfl := ends slash rfl
      rw [List.length_cons] at enough
      exact breaksOff_of_stays (Nat.lt_of_succ_lt_succ enough) read
        (Reader.stays_push_of_fits outside (refuses_literal (by decide))) back

theorem BreaksOff.cons
    {parts : List GlobPart}
    {text : Text}
    (breaks : BreaksOff parts text)
    (c : Char) :
    BreaksOff (escapedPart c :: parts) (c :: text) := by
  obtain ⟨front, back, rest, rfl, rfl, refuses⟩ := breaks
  exact ⟨c :: front, back, rest, rfl, rfl, refuses⟩

theorem replicate_append_cons (count : Nat) (c : Char) (text : Text) :
    List.replicate count c ++ c :: text = c :: (List.replicate count c ++ text) := by
  induction count with
  | zero => rfl
  | succ count inductionHypothesis =>
      rw [List.replicate_succ, List.cons_append, inductionHypothesis, List.cons_append]

/-- The glob of a text with a backslash breaks off. `count` backslashes stand for those of the
text before that are missing in the glob. -/
theorem breaksOff_of_readFrom
    {bound : Nat}
    {reader : Reader}
    {text more : Text}
    {glob : Glob}
    (count : Nat)
    (outside : reader.choices = [])
    (remains : 0 < count ∨ '\\' ∈ text)
    (ends : ∀ c, more.head? = some c → c = '/')
    (enough : (escape text ++ more).length < bound)
    (read : readFrom bound reader (escape text ++ more) = .ok glob) :
    ∃ parts, glob = reader.branch.reverse ++ parts ∧
      BreaksOff parts (List.replicate count '\\' ++ text) := by
  induction bound generalizing reader text count with
  | zero => exact absurd enough (Nat.not_lt_zero _)
  | succ bound inductionHypothesis =>
      have push (c : Char) : (reader.escaped c).branch.reverse =
          reader.branch.reverse ++ [escapedPart c] := by
        simp [Reader.escaped, Reader.push, Reader.note]
      cases text with
      | nil =>
          obtain ⟨count, rfl⟩ := Nat.exists_eq_add_one.mpr (remains.resolve_right List.not_mem_nil)
          rw [List.replicate_succ, List.cons_append]
          exact breaksOff_of_end outside ends enough read _
      | cons c rest =>
          by_cases backslash : c = '\\'
          · subst backslash
            rw [escape_backslash, List.cons_append] at read enough
            rw [List.length_cons] at enough
            rw [replicate_append_cons]
            by_cases again : rest.head? = some '\\'
            · -- Of two backslashes the glob has one, so one more is missing.
              obtain ⟨others, rfl⟩ := List.head?_eq_some_iff.mp again
              rw [escape_backslash, List.cons_append] at read enough
              rw [List.length_cons] at enough
              have outsideToo : (reader.escaped '\\').choices = [] := outside
              obtain ⟨parts, rfl, breaks⟩ := inductionHypothesis (count + 1) outsideToo
                (.inl (Nat.succ_pos count)) (by omega) read
              refine ⟨escapedPart '\\' :: parts, by rw [push, List.append_assoc]; rfl, ?_⟩
              rw [replicate_append_cons, ← List.cons_append, ← List.replicate_succ]
              exact breaks.cons '\\'
            · exact breaksOff_of_single outside again ends (by omega) read _
          · rw [escape_cons, List.append_assoc] at read enough
            rw [readFrom_escaped outside backslash] at read
            have shorter : (escape rest ++ more).length < bound := by
              rw [List.length_append] at enough
              split at enough <;> simp at enough ⊢ <;> omega
            cases count with
            | zero =>
                have later : '\\' ∈ rest := by
                  have among := remains.resolve_left (Nat.lt_irrefl 0)
                  exact (List.mem_cons.mp among).resolve_left fun same => backslash same.symm
                have outsideToo : (reader.escaped c).choices = [] := outside
                obtain ⟨parts, rfl, breaks⟩ := inductionHypothesis 0 outsideToo (.inr later)
                  shorter read
                exact ⟨escapedPart c :: parts, by rw [push, List.append_assoc]; rfl,
                  breaks.cons c⟩
            | succ count =>
                rw [List.replicate_succ, List.cons_append]
                exact breaksOff_of_stays shorter read
                  (Reader.stays_push_of_fits outside (refuses_escapedPart backslash)) _

/-- The glob of a text with a backslash, and a slash and more behind it, breaks off in the text. -/
theorem breaksOff_of_ofText
    {text more : Text}
    {glob : Glob}
    (among : '\\' ∈ text)
    (ends : ∀ c, more.head? = some c → c = '/')
    (read : ofText (escape text ++ more) = .ok glob) :
    BreaksOff glob text := by
  obtain ⟨parts, rfl, breaks⟩ := @breaksOff_of_readFrom _ Reader.start text more glob 0 rfl
    (.inr among) ends (Nat.lt_succ_self _) read
  exact breaks

end Glob
end StyleTypings
