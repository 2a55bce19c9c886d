import StyleTypings.Compile.Bundle
import StyleTypings.Text.Number

/-!
# The LESS compiler

The LESS compiler is an outside command. It is looked for in the module
directories above the workspace, then in the search path, then in a few usual
places. It reads the input file itself, so aliases have no effect, and it writes
the compiled text and a map into an output directory.
-/

namespace StyleTypings

/-- What an action knows of the process it runs in. -/
structure Environment where
  /-- The working directory. -/
  cwd : Path
  /-- The directories in which commands are looked for. -/
  searchPath : List Path
  /-- The home directory. -/
  home : Option Path
  deriving DecidableEq, Repr

namespace Lessc

/-- The command's name. -/
def commandName : Path :=
  "lessc"

/-- Where the command lies in a workspace. -/
def modulePath : Path :=
  "node_modules/.bin/lessc"

/-- The usual places of the command. -/
def usualPlaces (environment : Environment) : List Path :=
  let shared : List Path := ["/usr/local/bin/lessc", "/usr/bin/lessc"]
  shared ++
    (environment.home.map fun home =>
      home.join ".npm-global/bin/lessc").toList

/-- A directory with a tilde in front replaced by the home directory. -/
def expandHome (environment : Environment) (directory : Path) : Path :=
  match directory.components, environment.home with
  | .normal ['~'] :: rest, some home =>
      rest.foldl (fun path component => path.join ⟨component.text⟩) home
  | _, _ => directory

/-- Where the command may lie in the search path. -/
def searchPlaces (environment : Environment) : List Path :=
  environment.searchPath.map fun directory =>
    (expandHome environment directory).join commandName

/-- Where the command may lie in the directories above a workspace. -/
def workspacePlaces (workspace : Option Path) : List Path :=
  ((workspace.map Path.ancestors).getD []).map fun directory =>
    directory.join modulePath

/-- Looks for the command, from a workspace if there is one. -/
def find
    (environment : Environment)
    (workspace : Option Path) : Action (Option Path) :=
  (Action.findFirst Action.doesExist (workspacePlaces workspace)).bind
    fun inWorkspace =>
  match inWorkspace with
  | some path => .done (some path)
  | none =>
      (Action.findFirst Action.isExecutable (searchPlaces environment)).bind
        fun inSearchPath =>
      match inSearchPath with
      | some path => .done (some path)
      | none => Action.findFirst Action.doesExist (usualPlaces environment)

/-- The option for the directory of the input file, if it has one. -/
def baseOption (filename : Path) : List Text :=
  match filename.parent? with
  | some directory =>
      if directory.text.isEmpty then
        []
      else
        ["--source-map-basepath=" ++ directory.text]
  | none => []

/-- The options in front of the input file, given the output directory. -/
def arguments (options : CompileOptions) (outputDirectory : Text) : List Text :=
  let mapOptions : List Text :=
    if options.sourceMap then
      ("--source-map=" ++ outputDirectory ++ "/out.css.map") ::
        baseOption options.filename
    else
      []
  let pathOptions : List Text :=
    if options.imports.includePaths.isEmpty then
      []
    else
      ["--include-path=" ++
        Text.join [':'] (options.imports.includePaths.map Path.text)]
  "--no-color".toList :: mapOptions ++ pathOptions

/-- All arguments of a job, given the output directory. -/
def commandLine (job : LesscJob) (outputDirectory : Text) : List Text :=
  job.options outputDirectory ++
    [job.input.text, outputDirectory ++ "/out.css"]

/-- The first line of an error output that is not blank, without blanks around
it. -/
def firstLine (errors : Text) : Text :=
  (((Text.splitAt '\n' errors).map Text.trim).find? fun line =>
    !line.isEmpty).getD "lessc failed"

/-- A number of 32 bits with blanks around it. -/
def number? (text : Text) : Option UInt32 :=
  (Text.natBelow? UInt32.size text.trim).map Nat.toUInt32

/-- The line and the column that stand at the end of an error line. -/
def readLocation (location : Text) : Option UInt32 × Option UInt32 :=
  let place := location.dropEndWhile (· == ':')
  match Text.splitFirst? ", column " place with
  | some (line, column) => (number? line, number? column)
  | none => (number? place, none)

/-- Reads an error line: a message, the file after the last ` in `, and the line
and column after the last ` on line `. A line without a place concerns the input
file. -/
def readError (errors : Text) (input : Path) : CompileError :=
  let line := firstLine errors
  match Text.splitLast? " on line " line with
  | none => ⟨.reported line, some input, none, none⟩
  | some (head, location) =>
      let place := readLocation location
      match Text.splitLast? " in " head with
      | some (message, file) =>
          ⟨.reported message, some ⟨file⟩, place.1, place.2⟩
      | none => ⟨.reported head, some input, place.1, place.2⟩

/-- The outcome of a reply. -/
def outputOf
    (options : CompileOptions)
    (reply : LesscReply) : Except CompileError CompileOutput :=
  match reply with
  | .notStarted error => .error (.nowhere (.lesscNotStarted error))
  | .failed errors => .error (readError errors options.filename)
  | .finished (.error error) _ => .error (.nowhere (.lesscOutputUnreadable error))
  | .finished (.ok css) map =>
      if options.sourceMap then
        match map with
        | .ok map => .ok ⟨css, some map⟩
        | .error error => .error (.nowhere (.lesscMapUnreadable error))
      else
        .ok ⟨css, none⟩

/-- Compiles a file with the command. -/
def compile
    (command : Path)
    (options : CompileOptions) : Action (Except CompileError CompileOutput) :=
  let run : Action (Except CompileError CompileOutput) :=
    if options.imports.includePaths.any fun path => path.text.contains ':' then
      .done (.error (.nowhere .badIncludePath))
    else
      (Action.runLessc command ⟨arguments options, options.filename⟩).bind
        fun reply => .done (outputOf options reply)
  if options.imports.aliases.isEmpty then
    run
  else
    (Action.log .aliasesIgnored).bind fun _ => run

end Lessc

/-- Which compiler is used. -/
inductive CompilerKind
  /-- The LESS compiler for LESS files where there is one, the native one
  otherwise. -/
  | auto
  | native
  | lessc
  deriving DecidableEq, Repr

namespace CompilerKind

/-- The word of a kind. -/
def word : CompilerKind → Text
  | .auto => "auto"
  | .native => "native"
  | .lessc => "lessc"

/-- The kind of a word. -/
def ofText? (text : Text) : Option CompilerKind :=
  [auto, native, lessc].find? fun kind => kind.word == text

end CompilerKind

/-- A chosen compiler, with the LESS compiler's command where it was found. -/
structure Compiler where
  kind : CompilerKind
  command : Option Path
  deriving DecidableEq, Repr

namespace Compiler

/-- The compiler that never runs a command. -/
def native : Compiler :=
  ⟨.native, none⟩

/-- Chooses a compiler for a workspace. The LESS compiler must be there if
nothing else will do. -/
def create
    (environment : Environment)
    (kind : CompilerKind)
    (workspace : Path) : Action (Except CompileError Compiler) :=
  match kind with
  | .native => .done (.ok native)
  | .auto =>
      (Lessc.find environment (some workspace)).bind fun command =>
        .done (.ok ⟨.auto, command⟩)
  | .lessc =>
      (Lessc.find environment (some workspace)).bind fun command =>
        match command with
        | some path => .done (.ok ⟨.lessc, some path⟩)
        | none => .done (.error (.nowhere .lesscMissing))

/-- Whether a file is a LESS file by its extension, in lower case. -/
def isLessFile (filename : Path) : Bool :=
  filename.extension? == some "less".toList

/-- The command that compiles a file, unless it is compiled natively. -/
def commandFor? (compiler : Compiler) (filename : Path) : Option Path :=
  match compiler.kind with
  | .native => none
  | .lessc => compiler.command
  | .auto => if isLessFile filename then compiler.command else none

/-- Compiles a file of which the text is known. -/
def compile
    (compiler : Compiler)
    (options : CompileOptions)
    (source : Text) : Action (Except CompileError CompileOutput) :=
  match compiler.commandFor? options.filename with
  | some command => Lessc.compile command options
  | none =>
      if compiler.kind = .auto ∧ isLessFile options.filename = true then
        (Action.log .nativeLess).bind fun _ => Native.compile options source
      else
        Native.compile options source

end Compiler
end StyleTypings
