import StyleTypings.Files.FileSystem

/-!
# Territories

A territory is a set of places that hold no directory. While files are written in a territory
only, paths lead where they led before, and everything outside is as it was.
-/

namespace StyleTypings
namespace FileSystem

/-! ## Writing one file -/

/-- Other places hold what they held. -/
theorem find?_insert
    (files : FileSystem)
    {place : Place}
    (inner : place ≠ [])
    (entry : Entry)
    (other : Place) :
    (files.insert place entry).find? other =
      if other = place then some entry else files.find? other := by
  by_cases isRoot : other = []
  · subst isRoot
    simp [find?, inner.symm]
  · have notRoot : other.isEmpty = false := by simpa using isRoot
    unfold find? insert
    simp only [notRoot]
    by_cases present : (files.entries.any fun old => old.1 == place) = true
    · -- The places of the entries stay as they are.
      have kept : ((fun old : Place × Entry => old.1 == other) ∘ fun old =>
          if old.1 == place then (place, entry) else old) = fun old => old.1 == other := by
        funext old
        by_cases same : old.1 = place <;> simp [same]
      simp only [present, if_true, List.find?_map, kept]
      cases found : files.entries.find? fun old => old.1 == other with
      | none =>
          have apart : other ≠ place := by
            rintro rfl
            obtain ⟨old, among, isHere⟩ := List.any_eq_true.mp present
            exact List.find?_eq_none.mp found old among isHere
          simp [apart]
      | some old =>
          have here := List.find?_some found
          obtain rfl : old.1 = other := by simpa using here
          by_cases same : old.1 = place <;> simp [same]
    · have absent : files.entries.find? (fun old => old.1 == place) = none :=
        List.find?_eq_none.mpr fun old among isHere =>
          present (List.any_eq_true.mpr ⟨old, among, isHere⟩)
      by_cases same : other = place
      · subst same
        simp [present, List.find?_append, absent]
      · simp [present, List.find?_append, same, Ne.symm same]

/-- Whether the file at a place can be run. -/
def isExecutable (files : FileSystem) (place : Place) : Bool :=
  match files.find? place with
  | some (.file _ executable) => executable
  | _ => false

/-- A path that leads to no directory can be written. -/
theorem write_eq
    (files : FileSystem)
    (cwd : Place)
    (path : Path)
    (text : Text) :
    files.write cwd path text =
      (files.resolve cwd path).bind fun place =>
        if files.find? place = some .directory then
          .error .isDirectory
        else
          .ok (files.insert place (.file (.text text) (files.isExecutable place))) := by
  unfold write
  cases files.resolve cwd path with
  | error problem => rfl
  | ok place =>
      simp only [bind, Except.bind, isExecutable]
      cases files.find? place with
      | none => rfl
      | some entry => cases entry <;> rfl

/-! ## File systems that agree outside of a territory -/

/-- Two file systems have the same outside of a territory, and no directory inside. -/
structure AgreesOff (territory : Place → Prop) (files other : FileSystem) : Prop where
  outside : ∀ place, ¬ territory place → files.find? place = other.find? place
  inside : ∀ place, territory place →
    files.find? place ≠ some .directory ∧ other.find? place ≠ some .directory

namespace AgreesOff

variable {territory : Place → Prop} {files other : FileSystem} {cwd place : Place} {path : Path}

theorem symm (agrees : AgreesOff territory files other) : AgreesOff territory other files where
  outside place off := (agrees.outside place off).symm
  inside place within := (agrees.inside place within).symm

/-- The directories are the same. -/
theorem isDirectory
    (agrees : AgreesOff territory files other)
    (found : files.find? place = some .directory) :
    other.find? place = some .directory := by
  have off : ¬ territory place := fun within => (agrees.inside place within).1 found
  rw [← agrees.outside place off, found]

theorem follow_eq_ok
    (agrees : AgreesOff territory files other)
    {parts : List Text}
    {reached : Place}
    (followed : files.follow place parts = .ok reached) :
    other.follow place parts = .ok reached := by
  induction parts generalizing place with
  | nil => exact followed
  | cons part rest inductionHypothesis =>
      rw [follow] at followed ⊢
      have entered : other.enter place part = files.enter place part := by
        match found : files.find? place with
        | some .directory => rw [enter, enter, found, agrees.isDirectory found]
        | some (.file _ _) | none =>
            have fails : ∃ problem, files.enter place part = .error problem := by
              rw [enter, found]
              exact ⟨_, rfl⟩
            obtain ⟨problem, fails⟩ := fails
            rw [fails] at followed
            exact absurd followed nofun
      rw [entered]
      cases step : files.enter place part with
      | error problem =>
          rw [step] at followed
          exact absurd followed nofun
      | ok next =>
          rw [step] at followed
          exact inductionHypothesis followed

/-- Paths lead to the same places. -/
theorem resolve_eq_ok
    (agrees : AgreesOff territory files other)
    (leads : files.resolve cwd path = .ok place) :
    other.resolve cwd path = .ok place := by
  unfold resolve at leads ⊢
  split at leads
  · exact absurd leads nofun
  · next nonempty =>
      rw [if_neg nonempty]
      split at leads
      · exact absurd leads nofun
      · next short =>
          rw [if_neg short]
          exact agrees.follow_eq_ok leads

/-- A path names the same if it leads to a place outside. -/
theorem entryAt_eq
    (agrees : AgreesOff territory files other)
    (leads : files.resolve cwd path = .ok place)
    (off : ¬ territory place) :
    other.entryAt cwd path = files.entryAt cwd path := by
  unfold entryAt
  rw [leads, agrees.resolve_eq_ok leads]
  simp only [bind, Except.bind, agrees.outside place off]

theorem read_eq
    (agrees : AgreesOff territory files other)
    (leads : files.resolve cwd path = .ok place)
    (off : ¬ territory place) :
    other.read cwd path = files.read cwd path := by
  unfold read
  rw [agrees.entryAt_eq leads off]

/-- A path that leads nowhere names nothing, neither here nor there. -/
theorem kind?_eq
    (agrees : AgreesOff territory files other)
    (off : ∀ place, files.resolve cwd path = .ok place → ¬ territory place) :
    other.kind? cwd path = files.kind? cwd path := by
  cases leads : files.resolve cwd path with
  | ok place =>
      unfold kind?
      rw [agrees.entryAt_eq leads (off place leads)]
  | error problem =>
      have nowhere (system : FileSystem) {problem : FileError}
          (fails : system.resolve cwd path = .error problem) : system.kind? cwd path = none := by
        unfold kind? entryAt
        rw [fails]
        rfl
      cases leadsToo : other.resolve cwd path with
      | ok place => exact absurd (agrees.symm.resolve_eq_ok leadsToo) (by simp [leads])
      | error problemToo => rw [nowhere other leadsToo, nowhere files leads]

/-- A file written in the territory keeps what is outside. -/
theorem insert_right
    (agrees : AgreesOff territory files other)
    (within : territory place)
    (inner : place ≠ [])
    (content : Content)
    (executable : Bool) :
    AgreesOff territory files (other.insert place (.file content executable)) where
  outside elsewhere off := by
    have apart : elsewhere ≠ place := fun same => off (same ▸ within)
    rw [find?_insert _ inner, if_neg apart, agrees.outside elsewhere off]
  inside elsewhere among := by
    refine ⟨(agrees.inside elsewhere among).1, ?_⟩
    rw [find?_insert _ inner]
    split
    · exact nofun
    · exact (agrees.inside elsewhere among).2

end AgreesOff
end FileSystem
end StyleTypings
