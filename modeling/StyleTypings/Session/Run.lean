import StyleTypings.Session.Watch

/-!
# Runs

A run checks the files of a pattern, or writes their artifacts and then, if wanted,
watches them. A run that is to watch may leave out the first pass.
-/

namespace StyleTypings

/-- Why a run stops. -/
inductive RunError
  | pattern (error : PatternError)
  | compiler (error : CompileError)
  /-- There is nothing to watch. -/
  | watchFailed (base : Path)
  deriving DecidableEq, Repr

/-- The message shown to the user. -/
def RunError.message : RunError → Text
  | .pattern error => error.message
  | .compiler error => error.message
  | .watchFailed base => "watch error: nothing to watch at " ++ base.text

/-- What comes of a run. -/
inductive RunOutcome
  | finished (summary : Summary)
  /-- The first pass is done and the watch has begun. -/
  | watching (watch : Watch)

namespace RunOutcome

/-- Begins a watch. -/
def startWatch (watch : Watch) : Action (Except RunError RunOutcome) :=
  watch.start.bind fun hasBegun =>
    .done <|
      if hasBegun then
        .ok (.watching watch)
      else
        .error (.watchFailed watch.pattern.base)

end RunOutcome

namespace Generator

/-- Writes the artifacts of a pattern's files and watches them if wanted. -/
def writeAndWatch
    (generator : Generator)
    (selection : FilePattern) : Action (Except RunError RunOutcome) :=
  let options := generator.options
  if options.watch then
    if options.ignoreInitial then
      RunOutcome.startWatch ⟨generator, selection⟩
    else
      (generator.writeSelected selection).bind fun _ =>
        RunOutcome.startWatch ⟨generator, selection⟩
  else
    (generator.writeSelected selection).bind fun summary =>
      .done (.ok (.finished summary))

/-- Runs a generator on a pattern. -/
def runOn
    (generator : Generator)
    (environment : Environment)
    (pattern : Text) : Action (Except RunError RunOutcome) :=
  if generator.options.listDifferent then
    (generator.listDifferent environment pattern).bind fun summary =>
      .done ((summary.mapError .pattern).map .finished)
  else
    (FilePattern.ofText environment pattern).bind fun selection =>
    match selection with
    | .error error => .done (.error (.pattern error))
    | .ok selection => generator.writeAndWatch selection

end Generator

/-- Runs with some options on a pattern in a workspace. -/
def Options.run
    (options : Options)
    (environment : Environment)
    (pattern : Text)
    (workspace : Path) : Action (Except RunError RunOutcome) :=
  (Generator.create environment options workspace).bind fun generator =>
  match generator with
  | .error error => .done (.error (.compiler error))
  | .ok generator => generator.runOn environment pattern

end StyleTypings
