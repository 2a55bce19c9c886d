import StyleTypings.Compile.Lessc
import StyleTypings.Glob.Parser

/-!
# File patterns

A pattern selects style sheets. A directory selects every `.less` and `.css` file
below it, a file selects itself, and anything else is a glob. The files are found
by a walk from a directory without glob signs; directories of modules are left
out.

A path from a watcher is absolute, so it is also matched from the working
directory on.
-/

namespace StyleTypings

/-- The style sheets selected by a pattern. -/
structure FilePattern where
  /-- The directory from which the walk starts; empty for the working directory. -/
  start : Path
  glob : Glob
  /-- The working directory. -/
  cwd : Path

/-- Why a pattern selects nothing. -/
structure PatternError where
  /-- The pattern without `./` in front. -/
  pattern : Text
  /-- The glob that it stands for. -/
  glob : Text
  problem : GlobProblem
  deriving DecidableEq, Repr

/-- The message shown to the user. -/
def PatternError.message (error : PatternError) : Text :=
  "invalid glob pattern '" ++ error.pattern ++ "': " ++
    Glob.errorMessage error.glob error.problem

namespace FilePattern

/-- The name of the directories of modules. -/
def moduleDirectory : Text :=
  "node_modules"

/-- The glob below a directory. -/
def sheetsBelow : Text :=
  "**/*.\x7bless,css\x7d"

/-- Drops `./` in front as long as there is one, given a bound on how often. -/
def dropCurrentFrom : Nat → Text → Text
  | 0, pattern => pattern
  | bound + 1, pattern =>
      match pattern with
      | '.' :: '/' :: rest =>
          dropCurrentFrom bound (rest.dropWhile (· == '/'))
      | other => other

/-- A pattern without `./` in front; a full stop alone becomes empty. -/
def dropCurrent (pattern : Text) : Text :=
  let rest := dropCurrentFrom pattern.length pattern
  if rest = ['.'] then [] else rest

/-- Whether a component holds a sign of a glob. -/
def hasGlobSign (component : PathComponent) : Bool :=
  component.text.any fun c => c == '*' || c == '?' || c == '[' || c == '{'

/-- The leading components without glob signs; without the last one if that is
the whole pattern. -/
def literalStart (pattern : Text) : Path :=
  let leading :=
    (Path.components ⟨pattern⟩).takeWhile fun component => !hasGlobSign component
  let start :=
    leading.foldl (fun start component => start.join ⟨component.text⟩) (⟨[]⟩ : Path)
  if start.text = pattern then start.parent?.getD start else start

/-- The directory to walk from and the glob of a pattern of the given kind. -/
def interpret (pattern : Text) (kind : Option FileKind) : Path × Text :=
  if pattern.isEmpty then
    (⟨[]⟩, sheetsBelow)
  else
    match kind with
    | some .directory =>
        let directory := pattern.dropEndWhile (· == '/')
        (⟨directory⟩, Glob.escape directory ++ '/' :: sheetsBelow)
    | some (.file _) =>
        ((Path.parent? ⟨pattern⟩).getD ".", Glob.escape pattern)
    | none => (literalStart pattern, pattern)

/-- The pattern of a text. -/
def ofText
    (environment : Environment)
    (text : Text) : Action (Except PatternError FilePattern) :=
  let pattern := dropCurrent text
  (Action.kind? ⟨pattern⟩).bind fun kind =>
  let (start, glob) := interpret pattern kind
  match Glob.ofText glob with
  | .ok glob => .done (.ok ⟨start, glob, environment.cwd⟩)
  | .error problem => .done (.error ⟨pattern, glob, problem⟩)

/-- The directory to walk from and to watch. -/
def base (pattern : FilePattern) : Path :=
  if pattern.start.text.isEmpty then "." else pattern.start

/-- Whether the pattern selects a path. -/
def selects (pattern : FilePattern) (path : Path) : Bool :=
  pattern.glob.doesMatch path.text ||
    ((path.stripBase? pattern.cwd).any fun relative =>
      pattern.glob.doesMatch relative.text)

/-- A walked path as it is matched: without the full stop in front if the walk
starts in the working directory. -/
def walked (pattern : FilePattern) (path : Path) : Path :=
  if pattern.start.text.isEmpty then
    (path.stripBase? ".").getD path
  else
    path

/-- The first of each run of alike paths. -/
def dropRepeats : List Path → List Path
  | [] => []
  | path :: rest =>
      match dropRepeats rest with
      | [] => [path]
      | next :: others =>
          if path.alike next then path :: others else path :: next :: others

/-- The selected files in order, given the files below the base. -/
def select (pattern : FilePattern) (files : List Path) : List Path :=
  let selected :=
    (files.map pattern.walked).filter fun path => pattern.glob.doesMatch path.text
  dropRepeats (selected.mergeSort Path.le)

/-- The selected files in order. -/
def files (pattern : FilePattern) : Action (List Path) :=
  (Action.filesBelow pattern.base moduleDirectory).bind fun found =>
    .done (pattern.select found)

end FilePattern
end StyleTypings
