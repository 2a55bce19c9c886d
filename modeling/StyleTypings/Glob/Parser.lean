import StyleTypings.Glob.Basic

/-!
# Reading globs

A backslash hides the character after it. Braces enclose a choice whose branches
are separated by commas, and brackets a class. Two stars are special only as a
whole name, or as the whole end of a branch.

`escape` writes a text as a glob that matches just that text.
-/

namespace StyleTypings

/-- Why a text is not a glob. -/
inductive GlobProblem
  | unclosedClass
  | invalidRange (first last : Char)
  | unopenedChoice
  | unclosedChoice
  | danglingEscape
  deriving DecidableEq, Repr

/-- What is wrong, in words. -/
def GlobProblem.message : GlobProblem → Text
  | .unclosedClass => "unclosed character class; missing ']'"
  | .invalidRange first last =>
      "invalid range; '" ++ [first] ++ "' > '" ++ [last] ++ "'"
  | .unopenedChoice =>
      "unopened alternate group; missing '\x7b' " ++
        "(maybe escape '\x7d' with '[\x7d]'?)"
  | .unclosedChoice =>
      "unclosed alternate group; missing '\x7d' " ++
        "(maybe escape '\x7b' with '[\x7b]'?)"
  | .danglingEscape => "dangling '\\'"

namespace Glob

/-- The message about a text that is not a glob. -/
def errorMessage (text : Text) (problem : GlobProblem) : Text :=
  "error parsing glob '" ++ text ++ "': " ++ problem.message

/-- The state of the reader. -/
structure Reader where
  /-- The parts of the innermost branch so far, last first. -/
  branch : List GlobPart
  /-- The open choices, innermost first: the branches before in the choice, last
  first, and the branch around it so far. -/
  choices : List (List Glob × List GlobPart)
  /-- The character read last. -/
  previous : Option Char

namespace Reader

/-- The state before the first character. -/
def start : Reader :=
  ⟨[], [], none⟩

/-- Adds a part. -/
def push (reader : Reader) (part : GlobPart) : Reader :=
  { reader with branch := part :: reader.branch }

/-- Notes the character read last. -/
def note (reader : Reader) (char : Char) : Reader :=
  { reader with previous := some char }

/-- Opens a choice. -/
def openChoice (reader : Reader) : Reader :=
  { reader with
    branch := []
    choices := ([], reader.branch) :: reader.choices }

/-- Ends a branch: a comma is literal outside every choice. -/
def comma (reader : Reader) : Reader :=
  match reader.choices with
  | [] => reader.push (.literal ',')
  | (before, around) :: outer =>
      { reader with
        branch := []
        choices := (reader.branch.reverse :: before, around) :: outer }

/-- Closes the innermost choice. -/
def closeChoice (reader : Reader) : Except GlobProblem Reader :=
  match reader.choices with
  | [] => .error .unopenedChoice
  | (before, around) :: outer =>
      .ok
        { reader with
          branch := .choice (reader.branch.reverse :: before).reverse :: around
          choices := outer }

/-- Replaces the last part by two stars between slashes or at the end, unless it
is already of that kind. -/
def pushTree (reader : Reader) (atEnd : Bool) : Reader :=
  match reader.branch with
  | .treeStart :: _ => reader
  | .treeEnd :: _ => reader
  | _ :: before =>
      { reader with
        branch := (if atEnd then .treeEnd else .treeInside) :: before }
  | [] => reader

/-- Reads two stars, of which the rest follows, and returns the text after
them and the slash that may belong to them. -/
def twoStars (reader : Reader) (rest : Text) : Reader × Text :=
  let literal : Reader × Text :=
    (((reader.push .star).push .star).note '*', rest)
  if reader.branch.isEmpty then
    match rest with
    | [] => ((reader.push .treeStart).note '*', [])
    | '/' :: after => ((reader.push .treeStart).note '/', after)
    | _ => literal
  else
    let isInside := !reader.choices.isEmpty
    let follows :=
      reader.previous = some '/' ∨
        (isInside = true ∧
          (reader.previous = some ',' ∨ reader.previous = some '{'))
    if follows then
      match rest with
      | [] => ((reader.pushTree true).note '*', [])
      | '/' :: after => ((reader.pushTree false).note '/', after)
      | c :: _ =>
          if isInside = true ∧ (c = ',' ∨ c = '}') then
            ((reader.pushTree true).note '*', rest)
          else
            literal
    else
      literal

end Reader

/-- The ranges of a class so far, last first, and how it goes on. -/
structure ClassReader where
  ranges : List (Char × Char)
  /-- Whether no character has been read. -/
  isFirst : Bool
  /-- Whether a hyphen has been read that may make a range. -/
  inRange : Bool

/-- Ends the last range at a character. -/
def ClassReader.extend
    (reader : ClassReader)
    (last : Char) : Except GlobProblem ClassReader :=
  match reader.ranges with
  | [] => .ok { reader with isFirst := false, inRange := false }
  | (first, _) :: before =>
      if last < first then
        .error (.invalidRange first last)
      else
        .ok ⟨(first, last) :: before, false, false⟩

/-- Takes a character of a class other than the closing bracket. -/
def ClassReader.step
    (reader : ClassReader)
    (char : Char) : Except GlobProblem ClassReader :=
  if reader.inRange then
    reader.extend char
  else if char = '-' ∧ reader.isFirst = false then
    .ok { reader with inRange := true }
  else
    .ok ⟨(char, char) :: reader.ranges, false, false⟩

/-- The ranges of a class when it is closed. -/
def ClassReader.finish (reader : ClassReader) : List (Char × Char) :=
  if reader.inRange then
    (('-', '-') :: reader.ranges).reverse
  else
    reader.ranges.reverse

/-- Reads the ranges of a class up to its closing bracket, and returns the text
after it. A closing bracket in front is an ordinary character. -/
def readClass
    (reader : ClassReader) :
    Text → Except GlobProblem (List (Char × Char) × Text)
  | [] => .error .unclosedClass
  | char :: rest =>
      if char = ']' ∧ reader.isFirst = false then
        .ok (reader.finish, rest)
      else
        match reader.step char with
        | .error problem => .error problem
        | .ok next => readClass next rest

/-- Whether a class is negated, and the text after the mark for it. -/
def splitNegation (text : Text) : Bool × Text :=
  match text with
  | '!' :: rest => (true, rest)
  | '^' :: rest => (true, rest)
  | rest => (false, rest)

/-- Takes what stands at the front of a text, and returns the text after it. -/
def Reader.take
    (reader : Reader)
    (char : Char)
    (rest : Text) : Except GlobProblem (Reader × Text) :=
  match char with
  | '?' => .ok ((reader.push .any).note char, rest)
  | '*' =>
      match rest with
      | '*' :: after => .ok (reader.twoStars after)
      | _ => .ok ((reader.push .star).note char, rest)
  | '[' => do
      let negation := splitNegation rest
      let (ranges, after) ← readClass ⟨[], true, false⟩ negation.2
      .ok ((reader.push (.bytes negation.1 ranges)).note ']', after)
  | '{' => .ok (reader.openChoice.note char, rest)
  | '}' => do .ok ((← reader.closeChoice).note char, rest)
  | ',' => .ok (reader.comma.note char, rest)
  | '\\' =>
      match rest with
      | [] => .error .danglingEscape
      | hidden :: after => .ok ((reader.push (.literal hidden)).note hidden, after)
  | _ => .ok ((reader.push (.literal char)).note char, rest)

/-- Reads the rest of a glob; the bound limits the number of steps. -/
def readFrom : Nat → Reader → Text → Except GlobProblem Glob
  | 0, reader, _ => .ok reader.branch.reverse
  | bound + 1, reader, text =>
      match text with
      | [] =>
          if reader.choices.isEmpty then
            .ok reader.branch.reverse
          else
            .error .unclosedChoice
      | char :: rest =>
          match reader.take char rest with
          | .error problem => .error problem
          | .ok (next, after) => readFrom bound next after

/-- The glob that a text stands for. -/
def ofText (text : Text) : Except GlobProblem Glob :=
  readFrom (text.length + 1) Reader.start text

/-- A text as a glob that matches just this text: the signs that open, close or
stand for something are put in brackets. -/
def escape (text : Text) : Text :=
  text.flatMap fun char =>
    if char == '?' || char == '*' || char == '[' || char == ']' ||
        char == '{' || char == '}' then
      ['[', char, ']']
    else
      [char]

end Glob
end StyleTypings
