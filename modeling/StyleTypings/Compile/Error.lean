import StyleTypings.Files.FileSystem
import StyleTypings.Stylesheet.Fault
import StyleTypings.Text.LineIndex

/-!
# Compile errors

Why a style sheet does not compile, with the file and the place if they are
known. Lines count from one and columns from zero.
-/

namespace StyleTypings

/-- Why a style sheet does not compile. -/
inductive CompileProblem
  /-- The style sheet has a fault. -/
  | fault (kind : FaultKind)
  /-- No file stands for an import. -/
  | importNotFound (specifier : Text)
  /-- The file of an import cannot be read. -/
  | importUnreadable (target : Path) (error : FileError)
  /-- There is no LESS compiler. -/
  | lesscMissing
  /-- An include path holds the separator of path lists. -/
  | badIncludePath
  /-- The LESS compiler cannot be started. -/
  | lesscNotStarted (error : FileError)
  /-- The LESS compiler left no readable text. -/
  | lesscOutputUnreadable (error : FileError)
  /-- The LESS compiler left no readable map. -/
  | lesscMapUnreadable (error : FileError)
  /-- The LESS compiler gave a reason of its own. -/
  | reported (message : Text)
  deriving DecidableEq, Repr

/-- The message shown to the user. -/
def CompileProblem.message : CompileProblem → Text
  | .fault kind => kind.message
  | .importNotFound specifier => "'" ++ specifier ++ "' wasn't found"
  | .importUnreadable target error =>
      "failed to read '" ++ target.text ++ "': " ++ error.message
  | .lesscMissing =>
      "lessc not found - install `less` or use --compiler native"
  | .badIncludePath =>
      "invalid include path: path segment contains separator `:`"
  | .lesscNotStarted error => "failed to spawn lessc: " ++ error.message
  | .lesscOutputUnreadable error =>
      "failed to read lessc output: " ++ error.message
  | .lesscMapUnreadable error =>
      "failed to read lessc source map: " ++ error.message
  | .reported message => message

/-- A problem with its place, as far as it is known. -/
structure CompileError where
  problem : CompileProblem
  filename : Option Path
  line : Option UInt32
  column : Option UInt32
  deriving DecidableEq, Repr

namespace CompileError

/-- A problem without a place. -/
def nowhere (problem : CompileProblem) : CompileError :=
  ⟨problem, none, none, none⟩

/-- A problem at a place of a file. -/
def atPlace
    (problem : CompileProblem)
    (file : Path)
    (place : LineColumn) : CompileError :=
  ⟨problem, some file, some (place.line + 1), some place.column⟩

/-- The message shown to the user. -/
def message (error : CompileError) : Text :=
  error.problem.message

/-- The place in parentheses, with line and column if both are known. -/
def location? (error : CompileError) : Option Text :=
  error.filename.map fun file =>
    match error.line, error.column with
    | some line, some column =>
        "(" ++ file.text ++ "[" ++ Text.ofNat line.toNat ++ ":" ++
          Text.ofNat column.toNat ++ "])"
    | _, _ => "(" ++ file.text ++ ")"

/-- The message followed by the place. -/
def describe (error : CompileError) : Text :=
  match error.location? with
  | some location => error.message ++ ' ' :: location
  | none => error.message

end CompileError
end StyleTypings
