import StyleTypings.Text.Basic

/-!
# Blank characters

The Unicode property `White_Space`, and the trimming and word functions that
go by it.
-/

namespace StyleTypings
namespace Text

/-- The Unicode property `White_Space`. -/
def isBlank (c : Char) : Bool :=
  let code := c.toNat
  (9 ≤ code && code ≤ 13) || code == 0x20 || code == 0x85 || code == 0xA0 ||
    code == 0x1680 || (0x2000 ≤ code && code ≤ 0x200A) || code == 0x2028 ||
    code == 0x2029 || code == 0x202F || code == 0x205F || code == 0x3000

/-- Drops blanks at the start. -/
def trimStart (text : Text) : Text :=
  text.dropWhile isBlank

/-- Drops blanks at the end. -/
def trimEnd (text : Text) : Text :=
  text.dropEndWhile isBlank

/-- Drops blanks at both ends. -/
def trim (text : Text) : Text :=
  trimEnd (trimStart text)

/-- The first run of characters that are not blank. -/
def firstWord? (text : Text) : Option Text :=
  match text.trimStart with
  | [] => none
  | c :: rest => some ((c :: rest).takeWhile fun c => !isBlank c)

end Text
end StyleTypings
