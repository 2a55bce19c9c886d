import StyleTypings.Text.Basic

/-!
# Comments in JSON

Comments reach from two slashes to the end of the line or from `/*` to `*/`.
Neither begins inside a string.
-/

namespace StyleTypings
namespace Comments

/-- Where the reader is. -/
inductive Mode
  | outside
  | inString
  /-- After a backslash in a string. -/
  | inEscape
  | inLine
  | inBlock
  deriving DecidableEq, Repr

/-- The text left without its comments. -/
def removeFrom : Mode → Text → Text
  | _, [] => []
  | .inEscape, c :: rest => c :: removeFrom .inString rest
  | .inString, c :: rest =>
      c :: removeFrom
        (if c = '"' then .outside else if c = '\\' then .inEscape else .inString)
        rest
  | .inLine, c :: rest =>
      if c = '\n' then
        c :: removeFrom .outside rest
      else
        removeFrom .inLine rest
  | .inBlock, '*' :: '/' :: rest => removeFrom .outside rest
  | .inBlock, _ :: rest => removeFrom .inBlock rest
  | .outside, '/' :: '/' :: rest => removeFrom .inLine rest
  | .outside, '/' :: '*' :: rest => removeFrom .inBlock rest
  | .outside, c :: rest =>
      c :: removeFrom (if c = '"' then .inString else .outside) rest

/-- A text without its comments. -/
def remove (text : Text) : Text :=
  removeFrom .outside text

end Comments
end StyleTypings
