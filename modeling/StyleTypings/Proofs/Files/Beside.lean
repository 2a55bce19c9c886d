import Mathlib.Tactic.FinCases
import StyleTypings.Proofs.Files.Resolving
import StyleTypings.Proofs.Text.Joining
import StyleTypings.Session.Artifacts

/-!
# Paths of neighbours

A path that leads somewhere leads to a directory but for its last part. The same path with a
text at its end leads to a name in that directory, unless the name or the path gets too long.
Neighbours of one ending are told apart by what they are neighbours of.
-/

namespace StyleTypings

namespace Path

/-- The part behind the last slash. -/
def lastPart (path : Path) : Text :=
  (Text.splitAt '/' path.text).getLastD []

/-- The parts before the last slash. -/
def frontParts (path : Path) : List Text :=
  (Text.splitAt '/' path.text).dropLast

theorem splitAt_eq (path : Path) :
    Text.splitAt '/' path.text = path.frontParts ++ [path.lastPart] := by
  have nonempty := Text.splitAt_ne_nil '/' path.text
  rw [frontParts, lastPart, List.getLastD_eq_getLast?,
    List.getLast?_eq_some_getLast nonempty, Option.getD_some, List.dropLast_concat_getLast]

/-- A text without a slash is put behind the last part. -/
theorem splitAt_append
    (path : Path)
    {suffix : Text}
    (simple : '/' ∉ suffix) :
    Text.splitAt '/' (path.append suffix).text =
      path.frontParts ++ [path.lastPart ++ suffix] := by
  have parts := path.splitAt_eq
  have without (part : Text) (among : part ∈ path.frontParts ++ [path.lastPart]) :
      '/' ∉ part := Text.notMem_of_mem_splitAt (parts ▸ among)
  have joined : (path.append suffix).text =
      Text.join ['/'] (path.frontParts ++ [path.lastPart ++ suffix]) := by
    rw [Text.join_concat_append, ← parts, Text.join_splitAt]
    rfl
  rw [joined]
  refine Text.splitAt_join (by simp) fun part among => ?_
  rcases List.mem_append.mp among with inFront | isLast
  · exact without part (List.mem_append_left _ inFront)
  · obtain rfl := List.mem_singleton.mp isLast
    exact fun slash => (List.mem_append.mp slash).elim
      (without _ (List.mem_append_right _ (List.mem_singleton_self _))) simple

end Path

namespace Place

/-- The place from which the parts of a path lead on. -/
def origin (cwd : Place) (path : Path) : Place :=
  if path.isAbsolute then [] else cwd

/-- The directory in which a path looks for its last part. -/
def around (cwd : Place) (path : Path) : Place :=
  path.frontParts.foldl after (origin cwd path)

/-- The place of a path with a text at its end. -/
def beside (cwd : Place) (path : Path) (suffix : Text) : Place :=
  around cwd path ++ [path.lastPart ++ suffix]

theorem ofPath_eq_after (cwd : Place) (path : Path) :
    ofPath cwd path = (around cwd path).after path.lastPart := by
  rw [ofPath_eq_foldl, path.splitAt_eq, List.foldl_append]
  rfl

theorem beside_ne_ofPath
    (cwd : Place)
    (path : Path)
    {suffix : Text}
    (proper : suffix ≠ []) :
    beside cwd path suffix ≠ ofPath cwd path := by
  rw [ofPath_eq_after, beside, after]
  split
  · simp
  · split
    · intro same
      have sizes := congrArg List.length same
      simp only [List.length_append, List.length_singleton, List.length_dropLast] at sizes
      omega
    · simp [proper]

/-- Neighbours of one ending at one place are neighbours of one place. -/
theorem ofPath_eq_of_beside
    {cwd : Place}
    {path other : Path}
    {suffix : Text}
    (same : beside cwd path suffix = beside cwd other suffix) :
    ofPath cwd path = ofPath cwd other := by
  obtain ⟨directories, names⟩ := List.append_inj' same rfl
  have lasts := List.append_cancel_right (List.cons.inj names).1
  rw [ofPath_eq_after, ofPath_eq_after, directories, lasts]

end Place

namespace FileSystem

variable {files : FileSystem} {cwd place : Place} {path : Path} {suffix : Text}

theorem follow_append (files : FileSystem) (place : Place) (front back : List Text) :
    files.follow place (front ++ back) =
      (files.follow place front).bind fun reached => files.follow reached back := by
  induction front generalizing place with
  | nil => rfl
  | cons part rest inductionHypothesis =>
      rw [List.cons_append, follow, follow]
      cases files.enter place part with
      | error problem => rfl
      | ok next => exact inductionHypothesis next

/-- A path that leads somewhere leads to a directory first. -/
theorem follow_frontParts (leads : files.resolve cwd path = .ok place) :
    files.follow (.origin cwd path) path.frontParts = .ok (.around cwd path) ∧
      files.find? (.around cwd path) = some .directory := by
  unfold resolve at leads
  split at leads
  · cases leads
  · split at leads
    · cases leads
    · rw [path.splitAt_eq, follow_append] at leads
      change (files.follow (.origin cwd path) path.frontParts).bind _ = _ at leads
      cases followed : files.follow (.origin cwd path) path.frontParts with
      | error problem =>
          rw [followed] at leads
          cases leads
      | ok directory =>
          obtain rfl : directory = .around cwd path := follow_eq followed
          refine ⟨rfl, ?_⟩
          rw [followed] at leads
          match found : files.find? (.around cwd path) with
          | some .directory => rfl
          | some (.file _ _) | none =>
              simp only [Except.bind, follow, enter, found] at leads
              cases leads

/-- Where a path leads with a text at its end. -/
theorem resolve_append
    (leads : files.resolve cwd path = .ok place)
    (simple : '/' ∉ suffix)
    (proper : 2 < suffix.length) :
    files.resolve cwd (path.append suffix) =
      if (path.append suffix).isAdmissible = true ∧
          (path.lastPart ++ suffix).byteSize ≤ maxName then
        .ok (.beside cwd path suffix)
      else
        .error .nameTooLong := by
  obtain ⟨followed, isDirectory⟩ := follow_frontParts leads
  have nonempty : path.text ≠ [] := by
    intro empty
    rw [resolve, empty] at leads
    exact absurd leads nofun
  have origins : (if (path.append suffix).isAbsolute then [] else cwd) =
      Place.origin cwd path := by
    obtain ⟨c, rest, text⟩ := List.exists_cons_of_ne_nil nonempty
    simp [Place.origin, Path.isAbsolute, Path.append, text]
  have long : 2 < (path.lastPart ++ suffix).length := by
    rw [List.length_append]
    omega
  have solid : Path.isIdle (path.lastPart ++ suffix) = false := by
    refine Bool.eq_false_iff.mpr fun idle => ?_
    rcases Bool.or_eq_true_iff.mp idle with isNil | isStop
    · rw [List.isEmpty_iff.mp isNil] at long
      exact absurd long (by decide)
    · rw [beq_iff_eq.mp isStop] at long
      exact absurd long (by decide)
  have down : path.lastPart ++ suffix ≠ ['.', '.'] := by
    intro up
    rw [up] at long
    exact absurd long (by decide)
  have notNil : (path.append suffix).text.isEmpty = false := by
    simp [Path.append, nonempty]
  unfold resolve
  rw [origins, path.splitAt_append simple, follow_append, followed, notNil]
  by_cases admissible : (path.append suffix).isAdmissible = true
  · by_cases short : (path.lastPart ++ suffix).byteSize ≤ maxName
    · simp only [Except.bind, follow, enter, isDirectory, solid, if_neg down,
        if_neg (Nat.not_lt.mpr short), admissible, short]
      rfl
    · simp only [Except.bind, follow, enter, isDirectory, solid, if_neg down,
        if_pos (Nat.lt_of_not_le short), admissible, short]
      rfl
  · simp [admissible]

end FileSystem

/-! ## The places of artifacts -/

namespace Artifacts

/-- What the names of a style sheet's artifacts end in. -/
def endings : List Text :=
  [".d.ts", ".d.ts.map"]

theorem mem_endings {suffix : Text} (ending : suffix ∈ endings) :
    '/' ∉ suffix ∧ 2 < suffix.length := by
  fin_cases ending <;> decide

/-- Artifacts at one place are of one kind, and of style sheets at one place. -/
theorem beside_inj
    {cwd : Place}
    {file other : Path}
    {suffix ending : Text}
    (first : suffix ∈ endings)
    (second : ending ∈ endings)
    (same : Place.beside cwd file suffix = Place.beside cwd other ending) :
    suffix = ending ∧ Place.ofPath cwd file = Place.ofPath cwd other := by
  have names : file.lastPart ++ suffix = other.lastPart ++ ending :=
    (List.cons.inj (List.append_inj' same rfl).2).1
  have lasts : suffix.getLast? = ending.getLast? := by
    have whole := congrArg List.getLast? names
    have nonempty (text : Text) (among : text ∈ endings) : text ≠ [] :=
      List.ne_nil_of_length_pos (Nat.zero_lt_of_lt (mem_endings among).2)
    rwa [List.getLast?_append_of_ne_nil _ (nonempty _ first),
      List.getLast?_append_of_ne_nil _ (nonempty _ second)] at whole
  have kinds : suffix = ending := by
    fin_cases first <;> fin_cases second <;> first | rfl | exact absurd lasts (by decide)
  subst kinds
  exact ⟨rfl, Place.ofPath_eq_of_beside same⟩

end Artifacts
end StyleTypings
