import StyleTypings.Files.Path

/-!
# File systems

A file system maps places to files and directories. A place is the list of names
from the root, which is always a directory. A path is resolved from a working
directory one part at a time: every part needs a directory before it, `..` goes
up, and an idle part stays.

Reading and writing fail as the system calls do; the texts of the failures are
those of the operating system.
-/

namespace StyleTypings

/-- Why a file cannot be read or written. -/
inductive FileError
  | notFound
  | permissionDenied
  | notDirectory
  | isDirectory
  | nameTooLong
  /-- The bytes of the file are not UTF-8. -/
  | notText
  deriving DecidableEq, Repr

/-- The operating system's text. -/
def FileError.message : FileError → Text
  | .notFound => "No such file or directory (os error 2)"
  | .permissionDenied => "Permission denied (os error 13)"
  | .notDirectory => "Not a directory (os error 20)"
  | .isDirectory => "Is a directory (os error 21)"
  | .nameTooLong => "File name too long (os error 36)"
  | .notText => "stream did not contain valid UTF-8"

/-- What a file holds. -/
inductive Content
  | text (value : Text)
  /-- Bytes that are not UTF-8. -/
  | binary
  deriving DecidableEq, Repr

/-- A file or a directory. -/
inductive Entry
  | file (content : Content) (executable : Bool)
  | directory
  deriving DecidableEq, Repr

/-- What kind of thing a path names. -/
inductive FileKind
  | file (executable : Bool)
  | directory
  deriving DecidableEq, Repr

/-- The kind of an entry. -/
def Entry.kind : Entry → FileKind
  | .file _ executable => .file executable
  | .directory => .directory

/-- The names from the root to a file or directory. -/
abbrev Place :=
  List Text

/-- The place that a path leads to from another place if every directory on the
way exists. -/
def Place.ofPath (cwd : Place) (path : Path) : Place :=
  (Text.splitAt '/' path.text).foldl
    (fun place part =>
      if Path.isIdle part then
        place
      else if part = ['.', '.'] then
        place.dropLast
      else
        place ++ [part])
    (if path.isAbsolute then [] else cwd)

/-- Files and directories by their places. -/
structure FileSystem where
  entries : List (Place × Entry)
  deriving DecidableEq, Repr

namespace FileSystem

/-- A file system with only its root. -/
def empty : FileSystem :=
  ⟨[]⟩

/-- What stands at a place. -/
def find? (files : FileSystem) (place : Place) : Option Entry :=
  if place.isEmpty then
    some .directory
  else
    (files.entries.find? fun entry => entry.1 == place).map Prod.snd

/-- Puts an entry at a place, instead of the one there. -/
def insert (files : FileSystem) (place : Place) (entry : Entry) : FileSystem :=
  if (files.entries.any fun old => old.1 == place) then
    ⟨files.entries.map fun old => if old.1 == place then (place, entry) else old⟩
  else
    ⟨files.entries ++ [(place, entry)]⟩

/-- Removes a place and everything below it. -/
def remove (files : FileSystem) (place : Place) : FileSystem :=
  ⟨files.entries.filter fun entry => !place.isPrefixOf entry.1⟩

/-- Adds the missing directories on the way to a place, the place included. -/
def makeDirectories (files : FileSystem) (place : Place) : FileSystem :=
  ((List.range (place.length + 1)).map place.take).foldl
    (fun files above =>
      if (files.find? above).isSome then files else files.insert above .directory)
    files

/-- Puts an entry at a place and adds the directories it needs. -/
def put (files : FileSystem) (place : Place) (entry : Entry) : FileSystem :=
  (files.makeDirectories place.dropLast).insert place entry

/-- Longest name of a file in bytes. -/
def maxName : Nat :=
  255

/-- The directory reached by a part from a directory, or the place of a name in
it. -/
def enter
    (files : FileSystem)
    (place : Place)
    (part : Text) : Except FileError Place :=
  match files.find? place with
  | none => .error .notFound
  | some (.file _ _) => .error .notDirectory
  | some .directory =>
      if Path.isIdle part then
        .ok place
      else if part = ['.', '.'] then
        .ok place.dropLast
      else if maxName < part.byteSize then
        .error .nameTooLong
      else
        .ok (place ++ [part])

/-- The place of a list of parts from a place; the last name need not exist. -/
def follow
    (files : FileSystem) :
    Place → List Text → Except FileError Place
  | place, [] => .ok place
  | place, part :: rest => do follow files (← files.enter place part) rest

/-- The place that a path names, seen from a working directory. -/
def resolve
    (files : FileSystem)
    (cwd : Place)
    (path : Path) : Except FileError Place :=
  if path.text.isEmpty then
    .error .notFound
  else if !path.isAdmissible then
    .error .nameTooLong
  else
    files.follow (if path.isAbsolute then [] else cwd)
      (Text.splitAt '/' path.text)

/-- What a path names. -/
def entryAt
    (files : FileSystem)
    (cwd : Place)
    (path : Path) : Except FileError Entry := do
  match files.find? (← files.resolve cwd path) with
  | some entry => .ok entry
  | none => .error .notFound

/-- The kind of thing a path names, if there is one. -/
def kind? (files : FileSystem) (cwd : Place) (path : Path) : Option FileKind :=
  match files.entryAt cwd path with
  | .ok entry => some entry.kind
  | .error _ => none

/-- The text of a file. -/
def read
    (files : FileSystem)
    (cwd : Place)
    (path : Path) : Except FileError Text := do
  match ← files.entryAt cwd path with
  | .directory => .error .isDirectory
  | .file .binary _ => .error .notText
  | .file (.text text) _ => .ok text

/-- The file system after a text is written to a file, which is made if it does
not exist. -/
def write
    (files : FileSystem)
    (cwd : Place)
    (path : Path)
    (text : Text) : Except FileError FileSystem := do
  let place ← files.resolve cwd path
  match files.find? place with
  | some .directory => .error .isDirectory
  | some (.file _ executable) =>
      .ok (files.insert place (.file (.text text) executable))
  | none => .ok (files.insert place (.file (.text text) false))

/-- The names below a place on the way to another one, if that lies below it. -/
def below? (place other : Place) : Option (List Text) :=
  place.isPrefixOf? other

/-- The regular files below a path, each as the path followed by the names on
the way. A file below itself is the path alone. Nothing of the pruned name is
entered or listed, the last component of the path included. -/
def walk
    (files : FileSystem)
    (cwd : Place)
    (base : Path)
    (pruned : Text) : List Path :=
  if base.shortName = pruned then
    []
  else
    match files.resolve cwd base with
    | .error _ => []
    | .ok place =>
        match files.find? place with
        | some (.file _ _) => [base]
        | some .directory =>
            files.entries.filterMap fun entry =>
              match entry.2, below? place entry.1 with
              | .file _ _, some names =>
                  if names.contains pruned then
                    none
                  else
                    some (base.join ⟨Text.join ['/'] names⟩)
              | _, _ => none
        | none => []

/-- The places of all files. -/
def listing (files : FileSystem) : List Place :=
  files.entries.filterMap fun entry =>
    match entry.2 with
    | .file _ _ => some entry.1
    | .directory => none

end FileSystem
end StyleTypings
