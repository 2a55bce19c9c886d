import StyleTypings.Session.Run

/-!
# The program

A call of the program reads its command line, loads the options and runs. Its
messages go to the output, warnings, errors and the log to the error output. The
exit code tells whether the call was understood and whether every check passed.
-/

namespace StyleTypings

/-- What a call of the program comes to. -/
inductive Ending
  /-- The command line is not carried out. -/
  | notUnderstood (error : ArgumentError)
  /-- There are no options to run with. -/
  | notConfigured (error : ConfigError)
  /-- The run came to this. -/
  | ran (outcome : Except RunError RunOutcome)

namespace Program

/-- The name and the version. -/
def versionText : Text :=
  "typed-less-modules-rs 0.3.0"

/-- How the program is called. -/
def usage : List Text :=
  [ "Usage: typed-less-modules-rs [OPTIONS] <PATTERN>",
    "  -c, --config <PATH>           configuration file",
    "  -n, --nameFormat <FORMAT>     camel, kebab, param, dashes or none",
    "  -e, --exportType <SHAPE>      named or default",
    "      --declarationMap [BOOL]   write maps beside the declarations",
    "  -a, --alias <KEY=VALUE>       alias of an import",
    "      --aliasPrefix <KEY=VALUE> alias of the start of imports",
    "  -i, --includePath <DIR>       directory searched for imports",
    "      --compiler <KIND>         auto, native or lessc",
    "      --concurrency <N>         files processed at a time",
    "  -w, --watch                   write again whenever a file changes",
    "      --ignoreInitial           leave out the first pass of a watch",
    "  -l, --listDifferent           check instead of writing",
    "  -v, --verbose                 log more",
    "  -h, --help                    print this text",
    "  -V, --version                 print the version" ].map String.toList

/-- Carries out a command line. -/
def run
    (environment : Environment)
    (arguments : List Text) : Action Ending :=
  match Arguments.read arguments with
  | .error error => .done (.notUnderstood error)
  | .ok arguments =>
      (Options.load arguments.settings environment.cwd).bind fun options =>
      match options with
      | .error error => .done (.notConfigured error)
      | .ok options =>
          (options.run environment arguments.pattern environment.cwd).bind
            fun outcome => .done (.ran outcome)

end Program

namespace Ending

/-- The exit code of a call. -/
def exitCode : Ending → Nat
  | .notUnderstood .helpWanted | .notUnderstood .versionWanted => 0
  | .notUnderstood _ => 2
  | .notConfigured _ => 1
  | .ran (.error _) => 1
  | .ran (.ok (.finished summary)) => if summary.isSuccess then 0 else 1
  | .ran (.ok (.watching _)) => 0

/-- The last lines of the output. -/
def outputLines : Ending → List Text
  | .notUnderstood .helpWanted => Program.usage
  | .notUnderstood .versionWanted => [Program.versionText]
  | _ => []

/-- The last lines of the error output. -/
def errorLines : Ending → List Text
  | .notUnderstood .helpWanted | .notUnderstood .versionWanted => []
  | .notUnderstood error => ["error: " ++ error.message]
  | .notConfigured error => ["Error: " ++ error.message]
  | .ran (.error error) => ["Error: " ++ error.message]
  | .ran (.ok _) => []

end Ending

/-- Whether a message goes to the error output. -/
def AlertLevel.isForErrors : AlertLevel → Bool
  | .error | .warn => true
  | .notice | .success => false

namespace LogLine

/-- A line as it is printed. -/
def printed (line : LogLine) : Text :=
  " WARN " ++ line.text

/-- Whether a line is still to be printed after some others. -/
def isNew (earlier : List LogLine) (line : LogLine) : Bool :=
  !(line.isShownOnce && earlier.contains line)

/-- The lines to be printed of a log, last first as the log is. -/
def toPrint : List LogLine → List LogLine
  | [] => []
  | line :: earlier =>
      if line.isNew earlier then line :: toPrint earlier else toPrint earlier

end LogLine

namespace World

/-- What the messages so far have put to the output. -/
def outputLines (world : World) : List Text :=
  (world.alerts.reverse.filter fun alert => !alert.level.isForErrors).map
    Alert.message

/-- What the messages and the log so far have put to the error output. -/
def errorLines (world : World) : List Text :=
  ((world.alerts.reverse.filter fun alert => alert.level.isForErrors).map
    Alert.message) ++ (LogLine.toPrint world.logged).reverse.map LogLine.printed

end World
end StyleTypings
