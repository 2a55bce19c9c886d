import StyleTypings.Text.CaseTable
import StyleTypings.Text.Basic

/-!
# Full case mapping

Upper and lower case by the full Unicode mappings, so one character may become
several. In lower case a capital sigma at the end of a word becomes a final
sigma: it follows a cased character and no cased character follows it, where
case-ignorable characters are skipped on both sides.
-/

namespace StyleTypings

/-- Whether some range of a table contains a character. -/
def CaseTable.has (table : List CodeRange) (c : Char) : Bool :=
  table.any fun range => range.contains c.toNat

/-- The image of a character under a table of single and of several
characters; a character in neither table is kept. -/
def CaseTable.image
    (shifts : List CodeShift)
    (expansions : List (Nat × List Nat))
    (c : Char) : Text :=
  match expansions.find? fun row => row.1 == c.toNat with
  | some row => row.2.map Char.ofNat
  | none =>
      match shifts.find? fun shift => shift.range.contains c.toNat with
      | some shift => [Char.ofNat (shift.apply c.toNat)]
      | none => [c]

namespace Text

/-- The Unicode property `Uppercase`. -/
def isUpper (c : Char) : Bool :=
  CaseTable.has CaseTable.uppercase c

/-- The Unicode property `Lowercase`. -/
def isLower (c : Char) : Bool :=
  CaseTable.has CaseTable.lowercase c

/-- The Unicode property `Cased`: upper, lower or title case. -/
def isCased (c : Char) : Bool :=
  isUpper c || isLower c || CaseTable.has CaseTable.titlecase c

/-- The Unicode property `Case_Ignorable`. -/
def isCaseIgnorable (c : Char) : Bool :=
  CaseTable.has CaseTable.caseIgnorable c

/-- The full upper case of one character. -/
def upperChar (c : Char) : Text :=
  CaseTable.image CaseTable.upperShifts CaseTable.upperExpansions c

/-- The full lower case of one character, out of context. -/
def lowerChar (c : Char) : Text :=
  CaseTable.image CaseTable.lowerShifts CaseTable.lowerExpansions c

/-- Whether the first character that is not case-ignorable is cased. -/
def startsCased (text : Text) : Bool :=
  match text.dropWhile isCaseIgnorable with
  | [] => false
  | c :: _ => isCased c

/-- Lower case of the characters left, given those already passed, nearest
first. -/
def lowerAfter : Text → Text → Text
  | _, [] => []
  | passed, c :: rest =>
      let image :=
        if c = 'Σ' then
          if startsCased passed && !startsCased rest then ['ς'] else ['σ']
        else
          lowerChar c
      image ++ lowerAfter (c :: passed) rest

/-- The full lower case of a text. -/
def toLower (text : Text) : Text :=
  lowerAfter [] text

end Text
end StyleTypings
