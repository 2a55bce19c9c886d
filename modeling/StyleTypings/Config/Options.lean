import StyleTypings.Config.Arguments
import StyleTypings.Config.File

/-!
# Options of a run

The options of a run are put together from the command line and a configuration
file. A value on the command line wins over the file; aliases, include paths and
switches of both count.
-/

namespace StyleTypings

/-- The options of a run. -/
structure Options where
  nameFormat : NameFormat
  exportType : ExportType
  declarationMap : Bool
  aliases : Aliases
  includePaths : List Path
  compiler : CompilerKind
  /-- How many files are processed at a time; without a number, as many as there
  are processors. -/
  concurrency : Option Nat
  watch : Bool
  ignoreInitial : Bool
  listDifferent : Bool
  verbose : Bool
  deriving DecidableEq, Repr

namespace Options

/-- The options of a run for which nothing was said. -/
def standard : Options :=
  { nameFormat := .camel
    exportType := .named
    declarationMap := true
    aliases := .none
    includePaths := []
    compiler := .auto
    concurrency := none
    watch := false
    ignoreInitial := false
    listDifferent := false
    verbose := false }

/-- The aliases of a file and of the command line; the command line's come later
and win. -/
def mergeAliases (settings : Settings) (file : ConfigFile) : Aliases :=
  { exact := file.aliases.putAll settings.aliases
    prefixes := file.aliasPrefixes.putAll settings.aliasPrefixes }

/-- Puts the command line over a file. -/
def resolve
    (settings : Settings)
    (file : ConfigFile) : Except ConfigError Options :=
  let concurrency := settings.concurrency <|> file.concurrency
  if concurrency = some 0 then
    .error .zeroConcurrency
  else
    .ok
      { nameFormat :=
          (settings.nameFormat <|> file.nameFormat).getD standard.nameFormat
        exportType :=
          (settings.exportType <|> file.exportType).getD standard.exportType
        declarationMap :=
          (settings.declarationMap <|> file.declarationMap).getD
            standard.declarationMap
        aliases := mergeAliases settings file
        includePaths := file.includePaths ++ settings.includePaths
        compiler := (settings.compiler <|> file.compiler).getD standard.compiler
        concurrency := concurrency
        watch := settings.watch || file.watch
        ignoreInitial := settings.ignoreInitial || file.ignoreInitial
        listDifferent := settings.listDifferent || file.listDifferent
        verbose := settings.verbose || file.verbose }

/-- The configuration file that the command line names, or the one in the working
directory. -/
def loadFile
    (settings : Settings)
    (cwd : Path) : Action (Except ConfigError ConfigFile) :=
  match settings.config with
  | some path => ConfigFile.load (cwd.join path)
  | none =>
      (ConfigFile.find cwd).bind fun found =>
        .done (found.map fun config => config.getD .empty)

/-- The options of a command line in a working directory. -/
def load
    (settings : Settings)
    (cwd : Path) : Action (Except ConfigError Options) :=
  (loadFile settings cwd).bind fun file =>
    .done (file.bind (resolve settings))

end Options
end StyleTypings
