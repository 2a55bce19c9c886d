import StyleTypings.Session.Artifacts

/-!
# Checking artifacts

A style sheet passes if it exports nothing, or if its artifacts are what the files
beside it hold. The map's file is compared only if maps are wanted.
-/

namespace StyleTypings
namespace Generator

/-- The message about a style sheet that does not pass. -/
def differentMessage (file : Path) : Text :=
  "[INVALID TYPES] Check type definitions for " ++ file.text

/-- Whether a file holds a text. -/
def holds (path : Path) (text : Text) : Action Bool :=
  (Action.readText path).bind fun content =>
  match content with
  | .ok found => .done (found == text)
  | .error _ => .done false

/-- Whether the files beside a style sheet hold its artifacts. -/
def isUpToDate
    (generator : Generator)
    (file : Path)
    (artifacts : Artifacts) : Action Bool :=
  (holds (Artifacts.declarationPath file) artifacts.declaration).bind fun isSame =>
  if isSame && generator.options.declarationMap then
    holds (Artifacts.mapPath file) artifacts.map
  else
    .done isSame

/-- Reports a style sheet that does not pass. -/
def reportDifference (file : Path) : Bool → Action Bool
  | true => .done true
  | false =>
      (Action.alert .error (differentMessage file)).bind fun _ => .done false

/-- Whether a style sheet passes. -/
def checkFile (generator : Generator) (file : Path) : Action Bool :=
  (generator.generate file).bind fun generated =>
  match generated with
  | .error error =>
      (Action.log (.uncheckable file error.message)).bind fun _ =>
        reportDifference file false
  | .ok none => .done true
  | .ok (some artifacts) =>
      (warn artifacts.rejections).bind fun _ =>
        (generator.isUpToDate file artifacts).bind (reportDifference file)

end Generator
end StyleTypings
