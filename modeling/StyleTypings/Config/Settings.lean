import StyleTypings.Compile.Lessc
import StyleTypings.Declaration.Render
import StyleTypings.Text.Number

/-!
# Settings on the command line

A command line consists of a pattern and of options: switches, and fields that
take a value. Most may be given once. This module says what each option is called
and what giving it does; how options and values are told apart is said in
`StyleTypings.Config.Arguments`.
-/

namespace StyleTypings

/-- An option without a value. -/
inductive Switch
  | watch
  | ignoreInitial
  | listDifferent
  | verbose
  | help
  | version
  deriving DecidableEq, Repr

/-- An option with a value. -/
inductive Field
  | config
  | nameFormat
  | exportType
  | declarationMap
  | alias
  | aliasPrefix
  | includePath
  | compiler
  | concurrency
  deriving DecidableEq, Repr

/-- An option of the command line. -/
inductive CommandOption
  | switch (switch : Switch)
  | field (field : Field)
  deriving DecidableEq, Repr

namespace CommandOption

/-- The names that follow two hyphens. -/
def longNames : List (String × CommandOption) :=
  [ ("config", .field .config),
    ("nameFormat", .field .nameFormat),
    ("name-format", .field .nameFormat),
    ("exportType", .field .exportType),
    ("export-type", .field .exportType),
    ("declarationMap", .field .declarationMap),
    ("declaration-map", .field .declarationMap),
    ("alias", .field .alias),
    ("aliasPrefix", .field .aliasPrefix),
    ("alias-prefix", .field .aliasPrefix),
    ("includePath", .field .includePath),
    ("include-path", .field .includePath),
    ("compiler", .field .compiler),
    ("concurrency", .field .concurrency),
    ("watch", .switch .watch),
    ("ignoreInitial", .switch .ignoreInitial),
    ("ignore-initial", .switch .ignoreInitial),
    ("listDifferent", .switch .listDifferent),
    ("list-different", .switch .listDifferent),
    ("verbose", .switch .verbose),
    ("help", .switch .help),
    ("version", .switch .version) ]

/-- The option of a name after two hyphens. -/
def ofLong? (name : Text) : Option CommandOption :=
  (longNames.find? fun entry => entry.1.toList == name).map Prod.snd

/-- The option of a letter after one hyphen. -/
def ofShort? : Char → Option CommandOption
  | 'c' => some (.field .config)
  | 'n' => some (.field .nameFormat)
  | 'e' => some (.field .exportType)
  | 'a' => some (.field .alias)
  | 'i' => some (.field .includePath)
  | 'w' => some (.switch .watch)
  | 'l' => some (.switch .listDifferent)
  | 'v' => some (.switch .verbose)
  | 'h' => some (.switch .help)
  | 'V' => some (.switch .version)
  | _ => none

/-- The first long name of an option, with its hyphens. -/
def longName (option : CommandOption) : Text :=
  match longNames.find? fun entry => entry.2 == option with
  | some entry => "--" ++ entry.1.toList
  | none => "--"

end CommandOption

/-- Why a command line is not carried out. -/
inductive ArgumentError
  | missingPattern
  /-- An option that there is not, or an argument too many. -/
  | unknown (argument : Text)
  /-- An option stands without its value. -/
  | missingValue (field : Field)
  /-- A value is none of the words of its option. -/
  | unknownWord (field : Field) (value : Text)
  /-- A value is no number. -/
  | notNumber (field : Field) (value : Text)
  /-- A pair has no equals sign. -/
  | notPair (field : Field) (value : Text)
  /-- A pair has nothing before its equals sign. -/
  | emptyKey (field : Field) (value : Text)
  /-- An option is given a second time. -/
  | repeated (option : CommandOption)
  /-- A switch has a value. -/
  | unwantedValue (switch : Switch)
  /-- The user asks for help. -/
  | helpWanted
  /-- The user asks for the version. -/
  | versionWanted
  deriving DecidableEq, Repr

/-- The message shown to the user. -/
def ArgumentError.message : ArgumentError → Text
  | .missingPattern => "a pattern is required"
  | .unknown argument => "unexpected argument '" ++ argument ++ "'"
  | .missingValue field =>
      "a value is required for '" ++ CommandOption.longName (.field field) ++ "'"
  | .unknownWord field value | .notNumber field value =>
      "invalid value '" ++ value ++ "' for '" ++
        CommandOption.longName (.field field) ++ "'"
  | .notPair _ value => "expected KEY=VALUE, got '" ++ value ++ "'"
  | .emptyKey _ value => "empty key in '" ++ value ++ "'"
  | .repeated option =>
      "'" ++ option.longName ++ "' cannot be used more than once"
  | .unwantedValue switch =>
      "unexpected value for '" ++ CommandOption.longName (.switch switch) ++ "'"
  | .helpWanted => "help is wanted"
  | .versionWanted => "the version is wanted"

/-- What the options of a command line say. -/
structure Settings where
  config : Option Path
  nameFormat : Option NameFormat
  exportType : Option ExportType
  declarationMap : Option Bool
  aliases : Pairs
  aliasPrefixes : Pairs
  includePaths : List Path
  compiler : Option CompilerKind
  concurrency : Option Nat
  watch : Bool
  ignoreInitial : Bool
  listDifferent : Bool
  verbose : Bool
  deriving DecidableEq, Repr

namespace Settings

/-- No options. -/
def empty : Settings :=
  { config := none
    nameFormat := none
    exportType := none
    declarationMap := none
    aliases := []
    aliasPrefixes := []
    includePaths := []
    compiler := none
    concurrency := none
    watch := false
    ignoreInitial := false
    listDifferent := false
    verbose := false }

/-- A truth value. -/
def truth? (value : Text) : Option Bool :=
  if value = "true".toList then
    some true
  else if value = "false".toList then
    some false
  else
    none

/-- One of the words of a field. -/
def readWord {α : Type}
    (ofText? : Text → Option α)
    (field : Field)
    (value : Text) : Except ArgumentError α :=
  match ofText? value with
  | some found => .ok found
  | none => .error (.unknownWord field value)

/-- A number. -/
def readNumber (field : Field) (value : Text) : Except ArgumentError Nat :=
  match Text.natBelow? UInt64.size value with
  | some number => .ok number
  | none => .error (.notNumber field value)

/-- A key and a value around the first equals sign; the key is not empty. -/
def readPair
    (field : Field)
    (value : Text) : Except ArgumentError (Text × Text) :=
  match Text.splitFirst? ['='] value with
  | none => .error (.notPair field value)
  | some (key, content) =>
      if key.isEmpty then .error (.emptyKey field value) else .ok (key, content)

/-- The value of a field that has none so far. -/
def once {α : Type}
    (field : Field)
    (old : Option α)
    (value : Except ArgumentError α) : Except ArgumentError (Option α) :=
  if old.isSome then .error (.repeated (.field field)) else value.map some

/-- Gives a value to a field. -/
def give
    (settings : Settings)
    (field : Field)
    (value : Text) : Except ArgumentError Settings :=
  match field with
  | .config => do
      let config ← once field settings.config (.ok ⟨value⟩)
      .ok { settings with config }
  | .nameFormat => do
      let nameFormat ←
        once field settings.nameFormat (readWord NameFormat.ofText? field value)
      .ok { settings with nameFormat }
  | .exportType => do
      let exportType ←
        once field settings.exportType (readWord ExportType.ofText? field value)
      .ok { settings with exportType }
  | .declarationMap => do
      let declarationMap ←
        once field settings.declarationMap (readWord truth? field value)
      .ok { settings with declarationMap }
  | .alias => do
      let pair ← readPair field value
      .ok { settings with aliases := settings.aliases ++ [pair] }
  | .aliasPrefix => do
      let pair ← readPair field value
      .ok { settings with aliasPrefixes := settings.aliasPrefixes ++ [pair] }
  | .includePath =>
      .ok { settings with includePaths := settings.includePaths ++ [⟨value⟩] }
  | .compiler => do
      let compiler ←
        once field settings.compiler (readWord CompilerKind.ofText? field value)
      .ok { settings with compiler }
  | .concurrency => do
      let concurrency ← once field settings.concurrency (readNumber field value)
      .ok { settings with concurrency }

/-- Gives a field that may stand without a value. -/
def giveOptional
    (settings : Settings)
    (field : Field) : Option Text → Except ArgumentError Settings
  | some value => settings.give field value
  | none =>
      if field = .declarationMap then
        settings.give field "true"
      else
        .error (.missingValue field)

/-- Turns a switch on that was off. -/
def turn
    (switch : Switch)
    (old : Bool)
    (new : Settings) : Except ArgumentError Settings :=
  if old then .error (.repeated (.switch switch)) else .ok new

/-- Turns a switch on. -/
def turnOn
    (settings : Settings)
    (switch : Switch) : Except ArgumentError Settings :=
  match switch with
  | .watch => turn switch settings.watch { settings with watch := true }
  | .ignoreInitial =>
      turn switch settings.ignoreInitial { settings with ignoreInitial := true }
  | .listDifferent =>
      turn switch settings.listDifferent { settings with listDifferent := true }
  | .verbose => turn switch settings.verbose { settings with verbose := true }
  | .help => .error .helpWanted
  | .version => .error .versionWanted

end Settings
end StyleTypings
