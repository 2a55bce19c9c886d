import StyleTypings.Session.Program

/-!
# The command line

The outer layer: it answers the requests of actions from the real file system and
prints their messages. It starts no other program, so a run of the LESS compiler
is answered as if its command could not be started. A watch asks for the times of
the files below its base once a second.
-/

namespace StyleTypings
namespace Console

/-- What has been printed of the log, last first. -/
abbrev Shell :=
  StateT (List LogLine) IO

/-- The characters of a text. -/
def string (text : Text) : String :=
  String.ofList text

/-- The file of a path. -/
def fileAt (path : Path) :=
  System.mkFilePath [string path.text]

/-- The cause of a failure. -/
def causeOf : IO.Error → FileError
  | .noFileOrDirectory _ _ _ => .notFound
  | .inappropriateType _ code _ => if code = 20 then .notDirectory else .isDirectory
  | .illegalOperation _ _ => .isDirectory
  | .invalidArgument _ code _ => if code = 36 then .nameTooLong else .notFound
  | _ => .permissionDenied

/-- What a path names. -/
def kindOf (path : Path) : IO (Option FileKind) := do
  try
    let found ← (fileAt path).metadata
    match found.type with
    | .dir => return some .directory
    | .file => return some (.file true)
    | _ => return none
  catch _ =>
    return none

/-- The text of a file. -/
def readText (path : Path) : IO (Except FileError Text) := do
  try
    let bytes ← IO.FS.readBinFile (fileAt path)
    match String.fromUTF8? bytes with
    | some content => return .ok content.toList
    | none => return .error .notText
  catch error =>
    return .error (causeOf error)

/-- Writes a text to a file. -/
def writeText (path : Path) (text : Text) : IO (Except FileError Unit) := do
  try
    IO.FS.writeFile (fileAt path) (string text)
    return .ok ()
  catch error =>
    return .error (causeOf error)

/-- The regular files below a path with the times of their last change; nothing
of the pruned name is entered or listed. -/
def filesBelow
    (base : Path)
    (pruned : Option Text) : IO (List (Path × IO.FS.SystemTime)) := do
  let mut waiting := [base]
  let mut found := []
  repeat
    match waiting with
    | [] => break
    | path :: others =>
        waiting := others
        if some path.shortName = pruned then
          continue
        try
          let data ← (fileAt path).metadata
          match data.type with
          | .file => found := (path, data.modified) :: found
          | .dir =>
              for entry in ← (fileAt path).readDir do
                waiting := path.join ⟨entry.fileName.toList⟩ :: waiting
          | _ => pure ()
        catch _ =>
          pure ()
  return found

/-- Prints a message. -/
def printAlert (alert : Alert) : IO Unit :=
  if alert.level.isForErrors then
    IO.eprintln (string alert.message)
  else
    IO.println (string alert.message)

/-- Answers a request. -/
def answer : (request : Request) → Shell request.Answer
  | .kind path => kindOf path
  | .read path => readText path
  | .write path text => writeText path text
  | .walk base pruned => do return (← filesBelow base (some pruned)).map Prod.fst
  | .lessc _ _ => pure (.notStarted .permissionDenied)
  | .alert alert => printAlert alert
  | .log line => do
      let earlier ← get
      if line.isNew earlier then
        IO.eprintln (string line.printed)
      set (line :: earlier)

/-- Performs an action. -/
def perform {α : Type} : Action α → Shell α
  | .done value => pure value
  | .ask request next => do perform (next (← answer request))

/-- Follows the files of a watch for good. -/
def follow (watch : Watch) : Shell Unit := do
  let base := watch.pattern.cwd.join watch.pattern.base
  let mut known ← filesBelow base none
  repeat
    IO.sleep 1000
    let current ← filesBelow base none
    for (file, time) in current do
      let isKnown := known.any fun entry => entry.1 == file && entry.2 == time
      if !isKnown then
        perform (watch.change file)
    known := current

/-- What the program knows of its surroundings. -/
def surroundings : IO Environment := do
  let search := (← IO.getEnv "PATH").getD ""
  let home ← IO.getEnv "HOME"
  return {
    cwd := ⟨(← IO.currentDir).toString.toList⟩
    searchPath := (Text.splitAt ':' search.toList).map Path.mk
    home := home.map fun directory => ⟨directory.toList⟩ }

/-- Carries out a command line. -/
def call (arguments : List String) : Shell Nat := do
  let ending ←
    perform (Program.run (← surroundings) (arguments.map String.toList))
  for line in ending.outputLines do
    IO.println (string line)
  for line in ending.errorLines do
    IO.eprintln (string line)
  match ending with
  | .ran (.ok (.watching watch)) => follow watch
  | _ => pure ()
  return ending.exitCode

end Console
end StyleTypings

/-- Carries out a command line and gives the exit code. -/
def main (arguments : List String) : IO UInt32 := do
  let (code, _) ← (StyleTypings.Console.call arguments).run []
  return code.toUInt32
