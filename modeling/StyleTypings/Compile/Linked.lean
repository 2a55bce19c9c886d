import StyleTypings.Compile.SourceUnit
import StyleTypings.Files.Action
import StyleTypings.Text.Bounded

/-!
# Linked sheets

A linked sheet is a source unit cut into the pieces between its imports, with the
linked sheet of each imported file at the place of the import that first names
it. A file counts as seen by the components of its path, and every import of a
seen file leaves nothing.

Linking ends because each file that is entered is a path of at most 4095 bytes
that was not seen before, and there are finitely many of those.
-/

namespace StyleTypings

/-- A unit with its imports replaced. -/
inductive LinkedSheet
  | sheet (unit : SourceUnit) (pieces : List (Span × Option LinkedSheet)) (tail : Span)

namespace LinkedSheet

/-- Whether a path is among those seen, by components. -/
def hasSeen (seen : List Path) (path : Path) : Bool :=
  seen.any fun old => old.alike path

/-- Number of admissible paths not seen yet. -/
def unseen (seen : List Path) : Nat :=
  (Text.upTo 4095).countP fun text => !hasSeen seen ⟨text⟩

/-- Seeing a new admissible path leaves fewer unseen. -/
theorem unseen_cons_lt
    (seen : List Path)
    (path : Path)
    (admissible : path.isAdmissible = true)
    (isNew : hasSeen seen path = false) :
    unseen (path :: seen) < unseen seen := by
  have short : path.text.length ≤ 4095 :=
    Nat.le_trans (Text.length_le_byteSize path.text)
      (by simpa [Path.isAdmissible] using admissible)
  refine countP_lt_of_missed _ _ ?_ _ path.text
    (Text.mem_upTo 4095 path.text short) ?_ ?_
  · intro text notSeen
    simp only [hasSeen, List.any_cons, Bool.not_or, Bool.and_eq_true] at notSeen
    exact notSeen.2
  · simpa using isNew
  · simp [hasSeen, Path.alike]

/-- The first candidate for an import that is a regular file. A path that is too
long names no file. -/
def findFile (candidates : List Path) : Action (Option Path) :=
  Action.findFirst
    (fun path =>
      if path.isAdmissible then Action.isFile path else .done false)
    candidates

/-- The pieces of a unit for its imports, and the paths seen after them. -/
structure Pieces (seen : List Path) where
  pieces : List (Span × Option LinkedSheet)
  /-- Where the unit's text goes on after the last import. -/
  cursor : Nat
  seenAfter : List Path
  unseen_le : unseen seenAfter ≤ unseen seen

/-- The bytes of a unit from the last import to its end. -/
def tailOf (unit : SourceUnit) (cursor : Nat) : Span :=
  ⟨cursor, unit.text.byteSize⟩

/-- Links the imports left of a unit, whose text has been used up to the
cursor. -/
def linkImports
    (options : ImportOptions)
    (unit : SourceUnit)
    (rules : List ImportRule)
    (cursor : Nat)
    (seen : List Path) : Action (Except CompileError (Pieces seen)) :=
  match rules with
  | [] => .done (.ok ⟨[], cursor, seen, Nat.le_refl _⟩)
  | rule :: rest =>
      let before : Span := ⟨cursor, rule.span.start⟩
      (findFile (ImportSpecifier.candidates options unit.path rule.specifier)).bind
        fun found =>
      match found with
      | none =>
          .done (.error (unit.importError rule (.importNotFound rule.specifier)))
      | some target =>
          if new : target.isAdmissible = true ∧ hasSeen seen target = false then
            (Action.readText target).bind fun content =>
            match content with
            | .error error =>
                .done (.error (unit.importError rule (.importUnreadable target error)))
            | .ok source =>
                match SourceUnit.ofFile target source with
                | .error error => .done (.error error)
                | .ok imported =>
                    (linkImports options imported imported.imports 0
                        (target :: seen)).bind fun linked =>
                    match linked with
                    | .error error => .done (.error error)
                    | .ok inner =>
                        (linkImports options unit rest rule.span.stop
                            inner.seenAfter).bind fun others =>
                        match others with
                        | .error error => .done (.error error)
                        | .ok outer =>
                            .done <| .ok
                              { pieces :=
                                  (before, some (.sheet imported inner.pieces
                                    (tailOf imported inner.cursor))) :: outer.pieces
                                cursor := outer.cursor
                                seenAfter := outer.seenAfter
                                unseen_le :=
                                  Nat.le_trans outer.unseen_le <|
                                    Nat.le_trans inner.unseen_le <|
                                      Nat.le_of_lt
                                        (unseen_cons_lt seen target new.1 new.2) }
          else
            (linkImports options unit rest rule.span.stop seen).bind fun others =>
            match others with
            | .error error => .done (.error error)
            | .ok outer =>
                .done (.ok { outer with pieces := (before, none) :: outer.pieces })
  termination_by (unseen seen, rules.length)
  decreasing_by
    · exact Prod.Lex.left _ _ (unseen_cons_lt seen target new.1 new.2)
    · exact Prod.Lex.left _ _ <|
        Nat.lt_of_le_of_lt inner.unseen_le (unseen_cons_lt seen target new.1 new.2)
    · exact Prod.Lex.right _ (by simp)

/-- Links a file and everything that it imports. -/
def link
    (options : ImportOptions)
    (path : Path)
    (source : Text) : Action (Except CompileError LinkedSheet) :=
  match SourceUnit.ofFile path source with
  | .error error => .done (.error error)
  | .ok unit =>
      (linkImports options unit unit.imports 0 [path]).bind fun linked =>
      match linked with
      | .error error => .done (.error error)
      | .ok inner =>
          .done (.ok (.sheet unit inner.pieces (tailOf unit inner.cursor)))

end LinkedSheet
end StyleTypings
