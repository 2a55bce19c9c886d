import StyleTypings.Text.Basic

/-!
# Globs

A glob matches paths byte by byte, so a character outside ASCII counts as
several. A star or question mark never matches a slash, while a class may.

`remainders` lists what may be left of a path after a part of a glob has matched
at its front, without repetitions; a glob matches a path when nothing may be
left.
-/

namespace StyleTypings

/-- Bytes of a path. -/
abbrev Bytes :=
  List UInt8

/-- The bytes of a text in UTF-8. -/
def Text.bytes (text : Text) : Bytes :=
  text.flatMap String.utf8EncodeChar

/-- A part of a glob. -/
inductive GlobPart
  | literal (char : Char)
  /-- One byte other than a slash. -/
  | any
  /-- Any number of bytes other than a slash. -/
  | star
  /-- Two stars at the start: nothing, a slash, or anything up to a slash. -/
  | treeStart
  /-- Two stars at the end: a slash and anything. -/
  | treeEnd
  /-- Two stars between slashes: a slash, or two slashes with anything between. -/
  | treeInside
  /-- One byte inside or outside some ranges. -/
  | bytes (negated : Bool) (ranges : List (Char × Char))
  /-- One of several globs. -/
  | choice (branches : List (List GlobPart))
  deriving Repr, Inhabited

/-- A glob is the list of its parts. -/
abbrev Glob :=
  List GlobPart

namespace Glob

/-- The byte of a slash. -/
def slash : UInt8 :=
  47

/-- The given bytes and what is left after each of their bytes up to the first
slash. -/
def withinName : Bytes → List Bytes
  | [] => [[]]
  | byte :: rest =>
      if byte = slash then
        [byte :: rest]
      else
        (byte :: rest) :: withinName rest

/-- What is left after each slash. -/
def afterSlashes : Bytes → List Bytes
  | [] => []
  | byte :: rest =>
      if byte = slash then rest :: afterSlashes rest else afterSlashes rest

/-- Every end of some bytes. -/
def ends : Bytes → List Bytes
  | [] => [[]]
  | byte :: rest => (byte :: rest) :: ends rest

/-- The ranges of bytes that a range of characters stands for: the last byte of
its first character up to the first byte of its last character, and the other
bytes of both by themselves. -/
def byteRanges (range : Char × Char) : List (UInt8 × UInt8) :=
  let first := String.utf8EncodeChar range.1
  let last := String.utf8EncodeChar range.2
  if range.1 = range.2 then
    first.map fun byte => (byte, byte)
  else
    first.dropLast.map (fun byte => (byte, byte)) ++
      [(first.getLastD 0, last.headD 0)] ++
      last.tail.map fun byte => (byte, byte)

/-- Whether a byte lies in one of some ranges. -/
def inRanges (ranges : List (Char × Char)) (byte : UInt8) : Bool :=
  (ranges.flatMap byteRanges).any fun range =>
    range.1 ≤ byte && byte ≤ range.2

/-- What is left after one byte that satisfies a test. -/
def afterOne (test : UInt8 → Bool) : Bytes → List Bytes
  | [] => []
  | byte :: rest => if test byte then [rest] else []

/-- What is left after a slash. -/
def afterSlash (path : Bytes) : List Bytes :=
  afterOne (· == slash) path

mutual

/-- Whether a part matches nothing in any way: a choice between such globs. -/
def isVoid : GlobPart → Bool
  | .choice branches => areVoid branches
  | _ => false

/-- Whether all parts are void. -/
def allVoid : List GlobPart → Bool
  | [] => true
  | part :: rest => isVoid part && allVoid rest

/-- Whether all branches hold only void parts. -/
def areVoid : List (List GlobPart) → Bool
  | [] => true
  | branch :: rest => allVoid branch && areVoid rest

end

mutual

/-- What may be left of a path after a part has matched at its front. -/
def remainders : GlobPart → Bytes → List Bytes
  | .literal char, path =>
      ((String.utf8EncodeChar char).isPrefixOf? path).toList
  | .any, path => afterOne (· != slash) path
  | .star, path => withinName path
  | .treeStart, path => path :: afterSlashes path
  | .treeEnd, path => (afterSlash path).flatMap ends
  | .treeInside, path =>
      (afterSlash path).flatMap fun rest => rest :: afterSlashes rest
  | .bytes negated ranges, path =>
      afterOne (fun byte => inRanges ranges byte != negated) path
  | .choice branches, path =>
      if areVoid branches then [path] else choiceRemainders branches path

/-- What may be left after all parts have matched in turn. -/
def allRemainders : List GlobPart → Bytes → List Bytes
  | [], path => [path]
  | part :: rest, path =>
      ((remainders part path).eraseDups.flatMap
        fun left => allRemainders rest left).eraseDups

/-- What may be left after one of the branches that are not void. -/
def choiceRemainders : List (List GlobPart) → Bytes → List Bytes
  | [], _ => []
  | branch :: rest, path =>
      if allVoid branch then
        choiceRemainders rest path
      else
        allRemainders branch path ++ choiceRemainders rest path

end

/-- Whether a glob is two stars alone, which match everything. -/
def isEverything : Glob → Bool
  | [.treeStart] => true
  | _ => false

/-- Whether a glob matches a whole path. -/
def doesMatch (glob : Glob) (path : Text) : Bool :=
  isEverything glob || (allRemainders glob path.bytes).contains []

end Glob
end StyleTypings
