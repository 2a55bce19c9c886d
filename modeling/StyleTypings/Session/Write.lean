import StyleTypings.Session.Artifacts

/-!
# Writing artifacts

A style sheet's declaration is written first, then its map if maps are wanted.
Every call ends with one closing message: success, the notice that there is
nothing to declare, or an error.
-/

namespace StyleTypings

/-- What came of writing the artifacts of a style sheet. -/
inductive WriteOutcome
  /-- The declaration was written, and the map if maps are wanted. -/
  | written (declaration : Path) (map : Option Path)
  /-- The style sheet exports nothing. -/
  | nothingToDeclare
  | failed
  deriving DecidableEq, Repr

namespace Generator

/-- The notice that a style sheet exports nothing. -/
def nothingMessage (file : Path) : Text :=
  "[NO GENERATED TYPES] " ++ file.text

/-- The message that a declaration was written. -/
def writtenMessage (declaration : Path) : Text :=
  "[GENERATED TYPES] " ++ declaration.text

/-- The message that a file cannot be written. -/
def unwritableMessage (path : Path) (error : FileError) : Text :=
  "failed to write " ++ path.text ++ ": " ++ error.message

/-- Reports an error and fails. -/
def fail (message : Text) : Action WriteOutcome :=
  (Action.alert .error message).bind fun _ => .done .failed

/-- Writes a file and goes on, or reports why it cannot be written. -/
def writeOrFail
    (path : Path)
    (text : Text)
    (next : Action WriteOutcome) : Action WriteOutcome :=
  (Action.writeText path text).bind fun result =>
  match result with
  | .ok () => next
  | .error error => fail (unwritableMessage path error)

/-- Reports success. -/
def succeed (declaration : Path) (map : Option Path) : Action WriteOutcome :=
  (Action.alert .success (writtenMessage declaration)).bind fun _ =>
    .done (.written declaration map)

/-- Writes the artifacts of a style sheet. -/
def writeArtifacts
    (generator : Generator)
    (file : Path)
    (artifacts : Artifacts) : Action WriteOutcome :=
  let declaration := Artifacts.declarationPath file
  let map := Artifacts.mapPath file
  writeOrFail declaration artifacts.declaration <|
    if generator.options.declarationMap then
      writeOrFail map artifacts.map (succeed declaration (some map))
    else
      succeed declaration none

/-- Makes and writes the artifacts of a style sheet. -/
def writeFile (generator : Generator) (file : Path) : Action WriteOutcome :=
  (generator.generate file).bind fun generated =>
  match generated with
  | .error error => fail error.message
  | .ok none =>
      (Action.alert .notice (nothingMessage file)).bind fun _ =>
        .done .nothingToDeclare
  | .ok (some artifacts) =>
      (warn artifacts.rejections).bind fun _ =>
        generator.writeArtifacts file artifacts

end Generator
end StyleTypings
