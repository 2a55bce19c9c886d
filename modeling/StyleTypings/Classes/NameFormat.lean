import StyleTypings.Text.Blank
import StyleTypings.Text.Case

/-!
# Name formats

A name is split into words at separators and where the case of its letters
changes, and the words are put together again in camel case or with hyphens.
-/

namespace StyleTypings

/-- How class names are rewritten before they are declared. -/
inductive NameFormat
  /-- Words run together, all but the first capitalized. -/
  | camel
  /-- Words in lower case with hyphens between them. -/
  | kebab
  /-- The same as `kebab`. -/
  | param
  /-- Camel case for names with a hyphen; other names are kept. -/
  | dashes
  /-- Names are kept. -/
  | none
  deriving DecidableEq, Repr

namespace NameFormat

/-- The word of a format. -/
def word : NameFormat → Text
  | .camel => "camel"
  | .kebab => "kebab"
  | .param => "param"
  | .dashes => "dashes"
  | .none => "none"

/-- The format of a word. -/
def ofText? (text : Text) : Option NameFormat :=
  [camel, kebab, param, dashes, none].find? fun format => format.word == text

/-- A hyphen, underscore, full stop or blank. -/
def isSeparator (c : Char) : Bool :=
  c == '-' || c == '_' || c == '.' || Text.isBlank c

/-- Whether a character begins a new word although no separator stands before
it, given the character before it in the open word and the character after it:
an upper case letter does after a lower case letter or a digit, and after an
upper case letter if a lower case letter follows. -/
def beginsWord (previous : Option Char) (c : Char) (next : Option Char) : Bool :=
  match previous with
  | .none => false
  | some before =>
      Text.isUpper c &&
        (Text.isLower before || before.isDigit ||
          (Text.isUpper before && next.any Text.isLower))

/-- The word whose characters have been read, last first; none if there are no
characters. -/
def closeWord (reversed : Text) : List Text :=
  if reversed.isEmpty then [] else [reversed.reverse]

/-- The words of the text left, where `reversed` is the open word, last
character first. -/
def wordsFrom (reversed : Text) : Text → List Text
  | [] => closeWord reversed
  | c :: rest =>
      if isSeparator c then
        closeWord reversed ++ wordsFrom [] rest
      else if beginsWord reversed.head? c rest.head? then
        closeWord reversed ++ wordsFrom [c] rest
      else
        wordsFrom (c :: reversed) rest

/-- The words of a name. -/
def words (name : Text) : List Text :=
  wordsFrom [] name

/-- A word with its first character in upper case and the rest in lower case. -/
def capitalize : Text → Text
  | [] => []
  | c :: rest => Text.upperChar c ++ Text.toLower rest

/-- A name in camel case. -/
def camelCase (name : Text) : Text :=
  match words name with
  | [] => []
  | first :: others => Text.toLower first ++ others.flatMap capitalize

/-- A name in lower case with hyphens between its words. -/
def kebabCase (name : Text) : Text :=
  Text.join ['-'] ((words name).map Text.toLower)

/-- The declared name of a class. -/
def apply (format : NameFormat) (name : Text) : Text :=
  match format with
  | .camel => camelCase name
  | .kebab | .param => kebabCase name
  | .dashes => if name.contains '-' then camelCase name else name
  | .none => name

end NameFormat
end StyleTypings
