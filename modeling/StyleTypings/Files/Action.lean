import StyleTypings.Files.FileSystem

/-!
# Actions

An action is a program that asks its surroundings for one thing at a time: what
a path names, the text of a file, a write, a list of files, a run of the LESS
compiler, or a message to be shown. It is a tree that branches on the answers, so
the steps of several actions can be taken in any order.

`Action.run` performs an action in a `World`, which holds a file system, stands
in for the LESS compiler, and collects what was shown.
-/

namespace StyleTypings

/-- How a message to the user is meant. -/
inductive AlertLevel
  | error
  | warn
  | notice
  | success
  deriving DecidableEq, Repr

/-- A message to the user. -/
structure Alert where
  level : AlertLevel
  message : Text
  deriving DecidableEq, Repr

/-- A line of the log. -/
inductive LogLine
  /-- A LESS file is compiled natively for want of the LESS compiler. -/
  | nativeLess
  /-- The LESS compiler knows no aliases. -/
  | aliasesIgnored
  /-- A file could not be checked. -/
  | uncheckable (file : Path) (reason : Text)
  deriving DecidableEq, Repr

namespace LogLine

/-- Whether a line is shown only the first time. -/
def isShownOnce : LogLine → Bool
  | .uncheckable _ _ => false
  | _ => true

/-- The text of a line. -/
def text : LogLine → Text
  | .nativeLess =>
      "lessc not found, compiling .less files natively " ++
        "(LESS-only syntax is not supported)"
  | .aliasesIgnored => "aliases are not applied when compiling with lessc"
  | .uncheckable file reason => reason ++ " file=" ++ file.text

end LogLine

/-- A run of the LESS compiler. -/
structure LesscJob where
  /-- The arguments before the input file, given the output directory. -/
  options : Text → List Text
  /-- The input file. -/
  input : Path

/-- What came of a run of the LESS compiler. -/
inductive LesscReply
  /-- The command could not be started. -/
  | notStarted (error : FileError)
  /-- The command failed and wrote this to its error output. -/
  | failed (errors : Text)
  /-- The command succeeded; the compiled text and its map may be missing. -/
  | finished (css map : Except FileError Text)

/-- One thing an action can ask for. -/
inductive Request
  /-- What a path names. -/
  | kind (path : Path)
  /-- The text of a file. -/
  | read (path : Path)
  /-- Write a text to a file. -/
  | write (path : Path) (text : Text)
  /-- The regular files below a path, without those of a pruned name. -/
  | walk (base : Path) (pruned : Text)
  /-- Run the LESS compiler. -/
  | lessc (command : Path) (job : LesscJob)
  /-- Show a message. -/
  | alert (alert : Alert)
  /-- Write a line to the log. -/
  | log (line : LogLine)

/-- The type of the answer to a request. -/
def Request.Answer : Request → Type
  | .kind _ => Option FileKind
  | .read _ => Except FileError Text
  | .write _ _ => Except FileError Unit
  | .walk _ _ => List Path
  | .lessc _ _ => LesscReply
  | .alert _ => Unit
  | .log _ => Unit

/-- A program that asks for one thing at a time. -/
inductive Action (α : Type) : Type
  | done (value : α)
  | ask (request : Request) (next : request.Answer → Action α)

namespace Action

/-- One action after another. -/
def bind {α β : Type} (action : Action α) (next : α → Action β) : Action β :=
  match action with
  | .done value => next value
  | .ask request following => .ask request fun answer => (following answer).bind next

instance : Monad Action where
  pure := .done
  bind := bind

@[simp] theorem pure_eq_done {α : Type} (value : α) :
    (pure value : Action α) = .done value := rfl

@[simp] theorem bind_done {α β : Type} (value : α) (next : α → Action β) :
    (Action.done value >>= next) = next value := rfl

@[simp] theorem bind_ask {α β : Type}
    (request : Request)
    (following : request.Answer → Action α)
    (next : α → Action β) :
    (Action.ask request following >>= next) =
      .ask request fun answer => following answer >>= next := rfl

/-- Asks for one thing. -/
def request (wanted : Request) : Action wanted.Answer :=
  .ask wanted .done

/-- What a path names. -/
def kind? (path : Path) : Action (Option FileKind) :=
  request (.kind path)

/-- Whether a path names a regular file. -/
def isFile (path : Path) : Action Bool :=
  (kind? path).bind fun kind =>
    match kind with
    | some (.file _) => .done true
    | _ => .done false

/-- Whether a path names a directory. -/
def isDirectory (path : Path) : Action Bool :=
  (kind? path).bind fun kind => .done (kind == some .directory)

/-- Whether a path names anything. -/
def doesExist (path : Path) : Action Bool :=
  (kind? path).bind fun kind => .done kind.isSome

/-- Whether a path names a file that can be run. -/
def isExecutable (path : Path) : Action Bool :=
  (kind? path).bind fun kind => .done (kind == some (.file true))

/-- The text of a file. -/
def readText (path : Path) : Action (Except FileError Text) :=
  request (.read path)

/-- Writes a text to a file. -/
def writeText (path : Path) (text : Text) : Action (Except FileError Unit) :=
  request (.write path text)

/-- The regular files below a path, without those of a pruned name. -/
def filesBelow (base : Path) (pruned : Text) : Action (List Path) :=
  request (.walk base pruned)

/-- Runs the LESS compiler. -/
def runLessc (command : Path) (job : LesscJob) : Action LesscReply :=
  request (.lessc command job)

/-- Shows a message. -/
def alert (level : AlertLevel) (message : Text) : Action Unit :=
  request (.alert ⟨level, message⟩)

/-- Writes a line to the log. -/
def log (line : LogLine) : Action Unit :=
  request (.log line)

/-- The first of some values for which a test succeeds. -/
def findFirst {α : Type} (test : α → Action Bool) : List α → Action (Option α)
  | [] => .done none
  | value :: rest =>
      (test value).bind fun found =>
        if found then .done (some value) else findFirst test rest

/-- An action for each value in turn, with the results in order. -/
def forEach {α β : Type} (action : α → Action β) : List α → Action (List β)
  | [] => .done []
  | value :: rest =>
      (action value).bind fun result =>
        (forEach action rest).bind fun results => .done (result :: results)

end Action

/-- The surroundings of an action. -/
structure World where
  files : FileSystem
  /-- The working directory. -/
  cwd : Place
  /-- What the LESS compiler does with a job. -/
  lessc : LesscJob → LesscReply
  /-- The jobs that were started, last first. -/
  started : List LesscJob
  /-- The messages shown, last first. -/
  alerts : List Alert
  /-- The lines of the log, last first. -/
  logged : List LogLine

namespace World

/-- A world with some files in which nothing has happened yet. -/
def ofFiles
    (files : FileSystem)
    (cwd : Place)
    (lessc : LesscJob → LesscReply) : World :=
  ⟨files, cwd, lessc, [], [], []⟩

/-- The answer to a request and the world after it. -/
def answer (world : World) : (request : Request) → request.Answer × World
  | .kind path => (world.files.kind? world.cwd path, world)
  | .read path => (world.files.read world.cwd path, world)
  | .write path text =>
      match world.files.write world.cwd path text with
      | .ok files => (.ok (), { world with files })
      | .error error => (.error error, world)
  | .walk base pruned => (world.files.walk world.cwd base pruned, world)
  | .lessc command job =>
      match world.files.entryAt world.cwd command with
      | .error error => (.notStarted error, world)
      | .ok (.file _ true) =>
          (world.lessc job, { world with started := job :: world.started })
      | .ok _ => (.notStarted .permissionDenied, world)
  | .alert alert => ((), { world with alerts := alert :: world.alerts })
  | .log line => ((), { world with logged := line :: world.logged })

end World

namespace Action

/-- Performs an action in a world. -/
def run {α : Type} (action : Action α) (world : World) : α × World :=
  match action with
  | .done value => (value, world)
  | .ask request next =>
      let step := world.answer request
      (next step.1).run step.2

@[simp] theorem run_done {α : Type} (value : α) (world : World) :
    (Action.done value).run world = (value, world) := rfl

@[simp] theorem run_ask {α : Type}
    (request : Request)
    (next : request.Answer → Action α)
    (world : World) :
    (Action.ask request next).run world =
      (next (world.answer request).1).run (world.answer request).2 := rfl

/-- Two actions one after the other are performed one after the other. -/
theorem run_bind {α β : Type}
    (action : Action α)
    (next : α → Action β)
    (world : World) :
    (action.bind next).run world =
      (next (action.run world).1).run (action.run world).2 := by
  induction action generalizing world with
  | done value => rfl
  | ask request following inductionHypothesis =>
      exact inductionHypothesis _ _

end Action
end StyleTypings
