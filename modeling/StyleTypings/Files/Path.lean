import StyleTypings.Text.Basic

/-!
# Paths

A path keeps its text as written. Its components leave out empty parts and
inner full stops; a full stop in front and every `..` count. Two paths are
`alike` when their components are equal; comparing, stripping and listing go by
components, while joining keeps the texts.
-/

namespace StyleTypings

/-- A path as written. -/
structure Path where
  text : Text
  deriving DecidableEq, Repr, Inhabited

/-- A component of a path. -/
inductive PathComponent
  | root
  /-- A full stop in front of a relative path. -/
  | current
  | parent
  | normal (name : Text)
  deriving DecidableEq, Repr

namespace PathComponent

/-- The text of a component. -/
def text : PathComponent → Text
  | .root => "/"
  | .current => "."
  | .parent => ".."
  | .normal name => name

/-- Order of the kinds of component. -/
def rank : PathComponent → Nat
  | .root => 0
  | .current => 1
  | .parent => 2
  | .normal _ => 3

/-- Names in the order of their characters' codes, a name after its beginnings. -/
def nameLe : Text → Text → Bool
  | [], _ => true
  | _ :: _, [] => false
  | a :: left, b :: right =>
      if a = b then nameLe left right else a.toNat < b.toNat

/-- Order of components: by kind, names by their codes. -/
def le : PathComponent → PathComponent → Bool
  | .normal left, .normal right => nameLe left right
  | left, right => left.rank ≤ right.rank

end PathComponent

namespace Path

instance : Coe String Path := ⟨fun text => ⟨text.toList⟩⟩

/-- A part between slashes that is no component: nothing, or a full stop. -/
def isIdle (part : Text) : Bool :=
  part.isEmpty || part == ['.']

/-- The component of a part that is not idle. -/
def componentOf (part : Text) : PathComponent :=
  if part == ['.', '.'] then .parent else .normal part

/-- The slash or full stop in front of a path, and the text after it. -/
def splitLead (text : Text) : Text × Text :=
  match text with
  | '/' :: body => (['/'], body)
  | ['.'] => (['.'], [])
  | '.' :: '/' :: body => (['.'], '/' :: body)
  | body => ([], body)

/-- The parts of a path after its lead. -/
def parts (path : Path) : List Text :=
  Text.splitAt '/' (splitLead path.text).2

/-- The component of a lead. -/
def leadComponents (lead : Text) : List PathComponent :=
  match lead with
  | ['/'] => [.root]
  | ['.'] => [.current]
  | _ => []

/-- The components of a path. -/
def components (path : Path) : List PathComponent :=
  leadComponents (splitLead path.text).1 ++
    (path.parts.filter fun part => !isIdle part).map componentOf

/-- Whether two paths have the same components. -/
def alike (left right : Path) : Bool :=
  left.components == right.components

/-- Lexicographic order of component lists. -/
def componentsLe : List PathComponent → List PathComponent → Bool
  | [], _ => true
  | _ :: _, [] => false
  | a :: left, b :: right => if a = b then componentsLe left right else a.le b

/-- Order of paths by their components. -/
def le (left right : Path) : Bool :=
  componentsLe left.components right.components

/-- Whether a path begins at the root. -/
def isAbsolute (path : Path) : Bool :=
  path.text.head? == some '/'

/-- Two paths one after the other; an absolute path stands for itself, and an
empty one adds a slash. -/
def join (base path : Path) : Path :=
  if path.isAbsolute then
    path
  else if base.text.isEmpty ∨ base.text.getLast? = some '/' then
    ⟨base.text ++ path.text⟩
  else
    ⟨base.text ++ '/' :: path.text⟩

/-- Drops idle parts at the end. -/
def dropIdleEnd (parts : List Text) : List Text :=
  (parts.reverse.dropWhile isIdle).reverse

/-- Drops idle parts at the start. -/
def dropIdleStart (parts : List Text) : List Text :=
  parts.dropWhile isIdle

/-- The path without its last component; none for the root and for no
components. -/
def parent? (path : Path) : Option Path :=
  let lead := (splitLead path.text).1
  match dropIdleEnd path.parts with
  | [] => if lead = ['.'] then some ⟨[]⟩ else none
  | first :: rest =>
      some ⟨lead ++ Text.join ['/'] (dropIdleEnd ((first :: rest).dropLast))⟩

/-- The last component, if it is a name. -/
def fileName? (path : Path) : Option Text :=
  match path.components.getLast? with
  | some (.normal name) => some name
  | _ => none

/-- A file name before and after its last full stop; a full stop in front does
not count. -/
def splitName (name : Text) : Text × Option Text :=
  match Text.splitLast? ['.'] name with
  | some (before, after) =>
      if before.isEmpty then (name, none) else (before, some after)
  | none => (name, none)

/-- The file name before its extension. -/
def stem? (path : Path) : Option Text :=
  path.fileName?.map fun name => (splitName name).1

/-- The extension of the file name. -/
def extension? (path : Path) : Option Text :=
  path.fileName?.bind fun name => (splitName name).2

/-- Drops the parts up to and including a number of components. -/
def dropComponents : Nat → List Text → List Text
  | 0, parts => parts
  | _ + 1, [] => []
  | count + 1, part :: rest =>
      if isIdle part then
        dropComponents (count + 1) rest
      else
        dropComponents count rest

/-- The rest of a path after the components of another; idle parts at its ends
are dropped. -/
def stripBase? (path base : Path) : Option Path :=
  if base.components.isPrefixOf path.components then
    let lead := (splitLead path.text).1
    let count := base.components.length
    if count = 0 then
      some ⟨lead ++ Text.join ['/'] (dropIdleEnd path.parts)⟩
    else
      let inner := dropComponents (count - (leadComponents lead).length) path.parts
      some ⟨Text.join ['/'] (dropIdleStart (dropIdleEnd inner))⟩
  else
    none

/-- A path and its parents, given the number of its components. -/
def ancestorsFrom : Nat → Path → List Path
  | 0, path => [path]
  | count + 1, path =>
      match path.parent? with
      | none => [path]
      | some parent => path :: ancestorsFrom count parent

/-- A path, its parent, the parent's parent and so on. -/
def ancestors (path : Path) : List Path :=
  ancestorsFrom path.components.length path

/-- A path with text at its end. -/
def append (path : Path) (suffix : Text) : Path :=
  ⟨path.text ++ suffix⟩

/-- The file name, or the whole path if it has none. -/
def shortName (path : Path) : Text :=
  path.fileName?.getD path.text

/-- Whether a path is short enough to name a file: a system call takes up to
4095 bytes. -/
def isAdmissible (path : Path) : Bool :=
  path.text.byteSize ≤ 4095

end Path
end StyleTypings
