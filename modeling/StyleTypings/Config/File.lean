import StyleTypings.Compile.Lessc
import StyleTypings.Config.Comments
import StyleTypings.Declaration.Render
import StyleTypings.Json.Decode
import StyleTypings.Json.Fault

/-!
# The configuration file

A configuration file is a JSON record with comments. Every field may be left out;
an unknown or a repeated field makes the file invalid. Include paths are taken
from the directory of the file.
-/

namespace StyleTypings

/-- What a configuration file says. -/
structure ConfigFile where
  nameFormat : Option NameFormat
  exportType : Option ExportType
  declarationMap : Option Bool
  aliases : Pairs
  aliasPrefixes : Pairs
  includePaths : List Path
  compiler : Option CompilerKind
  concurrency : Option Nat
  watch : Bool
  ignoreInitial : Bool
  listDifferent : Bool
  verbose : Bool
  deriving DecidableEq, Repr

/-- Why there is no configuration. -/
inductive ConfigError
  | unreadable (path : Path) (error : FileError)
  /-- The file is not JSON, or is no record of the known fields. -/
  | invalid (path : Path) (error : Option Json.SyntaxError)
  /-- No file would ever be processed. -/
  | zeroConcurrency
  deriving DecidableEq, Repr

/-- The message shown to the user. -/
def ConfigError.message : ConfigError → Text
  | .unreadable path error =>
      "failed to read config " ++ path.text ++ ": " ++ error.message
  | .invalid path error =>
      "invalid config " ++ path.text ++ Json.SyntaxError.addendum error
  | .zeroConcurrency => "concurrency must be at least 1"

namespace ConfigFile

/-- A configuration file that says nothing. -/
def empty : ConfigFile :=
  { nameFormat := none
    exportType := none
    declarationMap := none
    aliases := []
    aliasPrefixes := []
    includePaths := []
    compiler := none
    concurrency := none
    watch := false
    ignoreInitial := false
    listDifferent := false
    verbose := false }

/-- The name of the file that is looked for in the working directory. -/
def defaultName : Path :=
  "typed-less-modules.json"

/-- The names of the fields in order. -/
def fieldNames : List Text :=
  [ "nameFormat", "exportType", "declarationMap", "aliases", "aliasPrefixes",
    "includePaths", "compiler", "concurrency", "watch", "ignoreInitial",
    "listDifferent", "verbose" ].map String.toList

/-- Containers that a field may open: 128 in all, the record included. -/
def fieldRoom : Nat :=
  127

/-- A choice between words: the word, or an object with the word as its only key
and null as its value. -/
def choice {α : Type} (ofText? : Text → Option α) : Json.View α
  | _, .string (some word) => ofText? word
  | _ + 1, .object [(some word, .null)] => ofText? word
  | _, _ => none

/-- Pairs from an object; of a repeated key the last value counts. -/
def pairs : Json.View Pairs :=
  fun room value => (Json.View.pairs room value).map fun found =>
    Pairs.putAll [] found

/-- A path. -/
def path : Json.View Path :=
  fun room value => (Json.View.text room value).map Path.mk

/-- What a JSON value says. -/
def ofJson? (value : Json) : Option ConfigFile := do
  match ← Json.record? fieldNames true true value with
  | [nameFormat, exportType, declarationMap, aliases, aliasPrefixes, includePaths,
      compiler, concurrency, watch, ignoreInitial, listDifferent, verbose] =>
      let flag := Json.defaultField Json.View.bool false fieldRoom
      some
        { nameFormat :=
            ← Json.optionalField (choice NameFormat.ofText?) fieldRoom nameFormat
          exportType :=
            ← Json.optionalField (choice ExportType.ofText?) fieldRoom exportType
          declarationMap :=
            ← Json.optionalField Json.View.bool fieldRoom declarationMap
          aliases := ← Json.defaultField pairs [] fieldRoom aliases
          aliasPrefixes := ← Json.defaultField pairs [] fieldRoom aliasPrefixes
          includePaths :=
            ← Json.defaultField (Json.View.list path) [] fieldRoom includePaths
          compiler :=
            ← Json.optionalField (choice CompilerKind.ofText?) fieldRoom compiler
          concurrency :=
            ← Json.optionalField (Json.View.natBelow UInt64.size) fieldRoom concurrency
          watch := ← flag watch
          ignoreInitial := ← flag ignoreInitial
          listDifferent := ← flag listDifferent
          verbose := ← flag verbose }
  | _ => none

/-- What a text says. -/
def ofText? (text : Text) : Option ConfigFile :=
  (Json.read? (Comments.remove text)).bind ofJson?

/-- Takes the include paths from the directory of a file. -/
def locate (config : ConfigFile) (file : Path) : ConfigFile :=
  match file.parent? with
  | some directory =>
      { config with includePaths := config.includePaths.map directory.join }
  | none => config

/-- Reads a configuration file. -/
def load (file : Path) : Action (Except ConfigError ConfigFile) :=
  (Action.readText file).bind fun content =>
  match content with
  | .error error => .done (.error (.unreadable file error))
  | .ok text =>
      match ofText? text with
      | some config => .done (.ok (config.locate file))
      | none =>
          let error := Json.SyntaxError.ofText? (Comments.remove text)
          .done (.error (.invalid file error))

/-- Reads the configuration file of a directory, if there is one. -/
def find (directory : Path) : Action (Except ConfigError (Option ConfigFile)) :=
  let file := directory.join defaultName
  (Action.doesExist file).bind fun isThere =>
  if isThere then
    (load file).bind fun config => .done (config.map some)
  else
    .done (.ok none)

end ConfigFile
end StyleTypings
