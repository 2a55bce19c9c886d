import StyleTypings.Session.Batch

/-!
# Watching

A watch follows the files below the base of a pattern. Whenever a selected file is
new or has changed, its artifacts are written again. Changed files are reported by
their absolute paths.
-/

namespace StyleTypings

/-- A watch over the files of a pattern. -/
structure Watch where
  generator : Generator
  pattern : FilePattern

namespace Watch

/-- The notice that a watch begins. -/
def startMessage (watch : Watch) : Text :=
  "Watching " ++ watch.pattern.base.text ++ "..."

/-- The notice that a file has changed. -/
def changedMessage (file : Path) : Text :=
  "[CHANGED] " ++ file.text

/-- Begins to watch; false if there is nothing at the base. -/
def start (watch : Watch) : Action Bool :=
  (Action.doesExist watch.pattern.base).bind fun isThere =>
  if isThere then
    (Action.alert .notice watch.startMessage).bind fun _ => .done true
  else
    .done false

/-- The absolute path under which a file below the base is reported, given the
names on the way from the base. -/
def reportedPath (watch : Watch) (names : List Text) : Path :=
  (watch.pattern.cwd.join watch.pattern.base).join ⟨Text.join ['/'] names⟩

/-- Deals with a file that is new or has changed. -/
def change (watch : Watch) (file : Path) : Action Unit :=
  (Action.isFile file).bind fun isFile =>
  if isFile && watch.pattern.selects file then
    (Action.alert .notice (changedMessage file)).bind fun _ =>
    (watch.generator.writeFile file).bind fun _ => .done ()
  else
    .done ()

/-- The absolute path of a place below the base, if it lies there. -/
def pathOf? (watch : Watch) (world : World) (place : Place) : Option Path :=
  match world.files.resolve world.cwd watch.pattern.base with
  | .error _ => none
  | .ok base => (base.isPrefixOf? place).map watch.reportedPath

end Watch
end StyleTypings
