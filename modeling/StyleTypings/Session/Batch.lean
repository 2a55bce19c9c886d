import StyleTypings.Files.Pattern
import StyleTypings.Session.Check
import StyleTypings.Session.Write

/-!
# Batches

A batch does one task for every file of a list. The files do not wait for each
other, so the order in which tasks finish does not count: the results are listed
in the order of the paths, and a file that fails stops no other.
-/

namespace StyleTypings

/-- The files that were processed. -/
structure Summary where
  fileCount : Nat
  /-- The files that did not pass, in order. -/
  failed : List Path
  deriving DecidableEq, Repr

namespace Summary

/-- Whether every file passed. -/
def isSuccess (summary : Summary) : Bool :=
  summary.failed.isEmpty

/-- The summary of the results of checks. -/
def ofChecks (results : List (Path × Bool)) : Summary :=
  { fileCount := results.length
    failed := (results.filter fun result => !result.2).map Prod.fst }

end Summary

namespace Batch

/-- A task for a file, with the file beside its result. -/
def labelled {α : Type} (task : Path → Action α) (file : Path) : Action (Path × α) :=
  (task file).bind fun result => .done (file, result)

/-- Results in the order of their paths. -/
def inPathOrder {α : Type} (results : List (Path × α)) : List (Path × α) :=
  results.mergeSort fun left right => left.1.le right.1

/-- Does a task for every file. -/
def perform {α : Type}
    (task : Path → Action α)
    (files : List Path) : Action (List (Path × α)) :=
  (Action.forEach (labelled task) files).bind fun results =>
    .done (inPathOrder results)

end Batch

namespace Generator

/-- The notice that a pattern selects nothing. -/
def noFilesMessage : Text :=
  "No files found."

/-- Writes the artifacts of some files. -/
def writeFiles
    (generator : Generator)
    (files : List Path) : Action (List (Path × WriteOutcome)) :=
  Batch.perform generator.writeFile files

/-- Checks some files. -/
def checkFiles (generator : Generator) (files : List Path) : Action Summary :=
  (Batch.perform generator.checkFile files).bind fun results =>
    .done (.ofChecks results)

/-- Checks the files of a pattern. -/
def listDifferent
    (generator : Generator)
    (environment : Environment)
    (pattern : Text) : Action (Except PatternError Summary) :=
  (FilePattern.ofText environment pattern).bind fun selection =>
  match selection with
  | .error error => .done (.error error)
  | .ok selection =>
      selection.files.bind fun files =>
      if files.isEmpty then
        (Action.alert .notice noFilesMessage).bind fun _ =>
          .done (.ok (.ofChecks []))
      else
        (generator.checkFiles files).bind fun summary => .done (.ok summary)

/-- Writes the artifacts of the files of a pattern and counts them. -/
def writeSelected
    (generator : Generator)
    (selection : FilePattern) : Action Summary :=
  selection.files.bind fun files =>
  let write :=
    (generator.writeFiles files).bind fun _ => .done ⟨files.length, []⟩
  if files.isEmpty then
    (Action.alert .notice noFilesMessage).bind fun _ => write
  else
    write

end Generator
end StyleTypings
