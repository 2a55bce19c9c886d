import Mathlib.Data.List.Nodup
import StyleTypings.Proofs.Files.Requests
import StyleTypings.Proofs.Files.Territory

/-!
# Steady actions

An action is steady if it asks about no place of a territory and writes at no other, as long
as it gets the answers of the start. Steady actions are undisturbed by each other.

What they leave behind is told by their writes. If no two of these are to the same place,
they may be done in any order.
-/

namespace StyleTypings

/-! ## Steady requests -/

namespace World

/-- The place at which a request changes the files, and the text that it puts there. -/
def change? (world : World) : Request → Option (Place × Text)
  | .write path text =>
      match world.files.resolve world.cwd path with
      | .ok place =>
          if world.files.find? place = some .directory then none else some (place, text)
      | .error _ => none
  | _ => none

theorem files_answer (world : World) (request : Request) :
    (world.answer request).2.cwd = world.cwd ∧
      (world.answer request).2.files =
        match world.change? request with
        | some (place, text) =>
            world.files.insert place (.file (.text text) (world.files.isExecutable place))
        | none => world.files := by
  cases request with
  | write path text =>
      simp only [answer, change?, FileSystem.write_eq]
      cases world.files.resolve world.cwd path with
      | error problem => exact ⟨rfl, rfl⟩
      | ok place =>
          by_cases isDirectory : world.files.find? place = some .directory
          · simp [Except.bind, isDirectory]
          · simp [Except.bind, isDirectory]
  | lessc command job =>
      simp only [answer, change?]
      split <;> exact ⟨rfl, rfl⟩
  | _ => exact ⟨rfl, rfl⟩

/-- A text is written at the place where the path leads, or nothing is changed. -/
theorem answer_write (world : World) (path : Path) (text : Text) :
    (∃ problem, (world.answer (.write path text)).1 = .error problem ∧
        world.change? (.write path text) = none) ∨
      ∃ place, world.files.resolve world.cwd path = .ok place ∧
        (world.answer (.write path text)).1 = .ok () ∧
        world.change? (.write path text) = some (place, text) := by
  simp only [answer, change?, FileSystem.write_eq]
  cases leads : world.files.resolve world.cwd path with
  | error problem => exact .inl ⟨problem, rfl, rfl⟩
  | ok place =>
      by_cases isDirectory : world.files.find? place = some .directory
      · simp only [Except.bind, if_pos isDirectory]
        exact .inl ⟨_, rfl, trivial⟩
      · simp only [Except.bind, if_neg isDirectory]
        exact .inr ⟨place, rfl, rfl, rfl⟩

/-- Only a write changes the files, at a place that holds no directory. -/
theorem exists_write_of_change?
    {world : World}
    {request : Request}
    {change : Place × Text}
    (changes : world.change? request = some change) :
    ∃ path, request = .write path change.2 ∧
      world.files.resolve world.cwd path = .ok change.1 ∧
      world.files.find? change.1 ≠ some .directory := by
  cases request with
  | write path text =>
      rw [change?] at changes
      split at changes
      · next place leads =>
          split at changes
          · cases changes
          · next notDirectory =>
              cases changes
              exact ⟨path, rfl, leads, notDirectory⟩
      · cases changes
  | _ => cases changes

/-- The root is a directory, so it is not changed. -/
theorem ne_nil_of_change?
    {world : World}
    {request : Request}
    {change : Place × Text}
    (changes : world.change? request = some change) :
    change.1 ≠ [] := by
  obtain ⟨path, -, -, notDirectory⟩ := exists_write_of_change? changes
  intro isRoot
  rw [isRoot] at notDirectory
  exact notDirectory rfl

/-- A world in which only files of a territory were written since the start. -/
structure Near (territory : Place → Prop) (start world : World) : Prop where
  cwd : world.cwd = start.cwd
  agrees : FileSystem.AgreesOff territory start.files world.files

end World

/-- A request that asks about no place of a territory and writes at no other. Where it leads
does not depend on what is in the territory. -/
def Request.IsSteady (territory : Place → Prop) (start : World) : Request → Prop
  | .kind path =>
      ∀ place, start.files.resolve start.cwd path = .ok place → ¬ territory place
  | .read path =>
      ∃ place, start.files.resolve start.cwd path = .ok place ∧ ¬ territory place
  | .write path _ =>
      (∀ files, start.files.AgreesOff territory files →
        files.resolve start.cwd path = start.files.resolve start.cwd path) ∧
      ∀ place, start.files.resolve start.cwd path = .ok place →
        start.files.find? place ≠ some .directory → territory place
  | .alert _ | .log _ => True
  | .walk _ _ | .lessc _ _ => False

theorem Request.IsSteady.territory_of_change?
    {territory : Place → Prop}
    {start : World}
    {request : Request}
    {change : Place × Text}
    (steady : request.IsSteady territory start)
    (changes : start.change? request = some change) :
    territory change.1 := by
  obtain ⟨path, rfl, leads, notDirectory⟩ := World.exists_write_of_change? changes
  exact steady.2 change.1 leads notDirectory

/-- A steady request gets the answer of the start, and it changes what it changes there. -/
theorem World.Near.answer_eq
    {territory : Place → Prop}
    {start world : World}
    (near : World.Near territory start world)
    {request : Request}
    (steady : request.IsSteady territory start) :
    (world.answer request).1 = (start.answer request).1 ∧
      world.change? request = start.change? request := by
  obtain ⟨cwd, agrees⟩ := near
  cases request with
  | kind path =>
      refine ⟨?_, rfl⟩
      simp only [answer, cwd]
      exact agrees.kind?_eq steady
  | read path =>
      obtain ⟨place, leads, off⟩ := steady
      refine ⟨?_, rfl⟩
      simp only [answer, cwd]
      exact agrees.read_eq leads off
  | write path text =>
      obtain ⟨leadsAlike, within⟩ := steady
      simp only [answer, change?, FileSystem.write_eq, cwd, leadsAlike _ agrees]
      cases leads : start.files.resolve start.cwd path with
      | error problem => exact ⟨rfl, rfl⟩
      | ok place =>
          by_cases isDirectory : start.files.find? place = some .directory
          · simp [Except.bind, agrees.isDirectory isDirectory, isDirectory]
            rfl
          · obtain ⟨-, notThere⟩ := agrees.inside place (within place leads isDirectory)
            simp [Except.bind, notThere, isDirectory]
            rfl
  | alert | log => exact ⟨rfl, rfl⟩
  | walk | lessc => exact steady.elim

/-- A steady request leaves a world near the start. -/
theorem World.Near.near_answer
    {territory : Place → Prop}
    {start world : World}
    (near : World.Near territory start world)
    {request : Request}
    (steady : request.IsSteady territory start) :
    World.Near territory start (world.answer request).2 := by
  obtain ⟨cwd, files⟩ := world.files_answer request
  refine ⟨cwd.trans near.cwd, ?_⟩
  rw [files]
  cases changes : world.change? request with
  | none => exact near.agrees
  | some change =>
      have within := steady.territory_of_change? ((near.answer_eq steady).2 ▸ changes)
      exact near.agrees.insert_right within (world.ne_nil_of_change? changes) _ _

/-! ## Steady actions -/

namespace Action

variable {α β : Type} {territory : Place → Prop} {start : World}

/-- An action that makes steady requests only, as long as it gets the answers of the start. -/
inductive Steady (territory : Place → Prop) (start : World) : Action α → Prop
  | done (value : α) : Steady territory start (.done value)
  | ask
      {request : Request}
      {next : request.Answer → Action α}
      (first : request.IsSteady territory start)
      (later : Steady territory start (next (start.answer request).1)) :
      Steady territory start (.ask request next)

/-- Steady actions are undisturbed by each other. -/
theorem undisturbed_steady
    (noDirectory : ∀ place, territory place → start.files.find? place ≠ some .directory) :
    Undisturbed start (World.Near territory start)
      (Steady territory start : Action α → Prop) where
  begins :=
    ⟨rfl, fun _ _ => rfl, fun place within => ⟨noDirectory place within, noDirectory place within⟩⟩
  ask steady near := by
    cases steady with
    | ask first later => exact ⟨(near.answer_eq first).1, near.near_answer first, later⟩

namespace Steady

/-- Requests about files are steady if they are steady at the start. -/
theorem of_inquires
    {action : Action α}
    (inquires : action.Inquires)
    (steady : ∀ request ∈ action.requests start, request.IsSteady territory start) :
    action.Steady territory start := by
  induction inquires with
  | done value => exact .done value
  | @ask request next first _ inductionHypothesis =>
      have same : (start.answer request).2 = start := by
        cases request with
        | kind | read | walk => rfl
        | _ => exact absurd first nofun
      rw [requests_ask, same] at steady
      exact .ask (steady request List.mem_cons_self) <|
        inductionHypothesis _ fun later among => steady later (List.mem_cons_of_mem _ among)

theorem of_only
    {allowed : Request → Bool}
    {action : Action α}
    (only : Only allowed action)
    (steady : ∀ request, allowed request = true → request.IsSteady territory start) :
    action.Steady territory start := by
  induction only with
  | done value => exact .done value
  | ask first _ inductionHypothesis => exact .ask (steady _ first) (inductionHypothesis _)

section Start

variable {action : Action α}
  (noDirectory : ∀ place, territory place → start.files.find? place ≠ some .directory)
  (steady : action.Steady territory start)

include noDirectory steady

/-- What steady actions come to does not depend on what others did before. -/
theorem eq_of_near {world : World} (near : World.Near territory start world) :
    (action.run world).1 = (action.run start).1 ∧
      action.requests world = action.requests start ∧
        World.Near territory start (action.run world).2 :=
  have undisturbed := undisturbed_steady noDirectory (α := α)
  undisturbed.eq_of_near steady near undisturbed.begins

/-- An action stays steady with a steady rest. -/
theorem bind
    {next : α → Action β}
    (later : (next (action.run start).1).Steady territory start) :
    (action.bind next).Steady territory start := by
  induction steady with
  | done value => exact later
  | @ask request following first steady inductionHypothesis =>
      obtain ⟨values, -⟩ := steady.eq_of_near noDirectory <|
        (undisturbed_steady (α := α) noDirectory).begins.near_answer first
      rw [run_ask, values] at later
      exact .ask first (inductionHypothesis later)

/-- The rest of a steady action comes to what it comes to at the start. -/
theorem bind_eq
    {next : α → Action β}
    (later : (next (action.run start).1).Steady territory start) :
    ((action.bind next).run start).1 = ((next (action.run start).1).run start).1 ∧
      (action.bind next).requests start =
        action.requests start ++ (next (action.run start).1).requests start := by
  have undisturbed := undisturbed_steady noDirectory (α := α)
  obtain ⟨-, -, near⟩ := steady.eq_of_near noDirectory undisturbed.begins
  obtain ⟨values, requests, -⟩ := later.eq_of_near noDirectory near
  rw [run_bind, requests_bind, values, requests]
  exact ⟨rfl, rfl⟩

theorem mem_requests {request : Request} (made : request ∈ action.requests start) :
    request.IsSteady territory start := by
  induction steady with
  | done value => exact absurd made List.not_mem_nil
  | @ask own following first steady inductionHypothesis =>
      obtain ⟨-, requests, -⟩ := steady.eq_of_near noDirectory <|
        (undisturbed_steady (α := α) noDirectory).begins.near_answer first
      rw [requests_ask, requests] at made
      rcases List.mem_cons.mp made with rfl | later
      · exact first
      · exact inductionHypothesis later

end Start
end Steady
end Action

/-! ## What is left behind -/

namespace World

variable {territory : Place → Prop} {start world : World} {done : List Request}

/-- What some requests change, with the texts that they put there. -/
def changes (start : World) (requests : List Request) : List (Place × Text) :=
  requests.filterMap start.change?

theorem changes_append (start : World) (front back : List Request) :
    start.changes (front ++ back) = start.changes front ++ start.changes back :=
  List.filterMap_append

theorem changes_cons (start : World) (request : Request) (rest : List Request) :
    start.changes (request :: rest) =
      (start.change? request).toList ++ start.changes rest := by
  rw [changes, List.filterMap_cons]
  cases start.change? request <;> rfl

/-- Requests that write nothing change nothing. -/
theorem changes_of_isHarmless
    (start : World)
    (harmless : ∀ request ∈ done, request.isHarmless = true) :
    start.changes done = [] := by
  refine List.filterMap_eq_nil_iff.mpr fun request among => ?_
  have first := harmless request among
  cases request with
  | write path text => exact absurd first nofun
  | _ => rfl

theorem near_afterAll
    (near : World.Near territory start world)
    (steady : ∀ request ∈ done, request.IsSteady territory start) :
    World.Near territory start (world.afterAll done) := by
  induction done generalizing world with
  | nil => exact near
  | cons request rest inductionHypothesis =>
      exact inductionHypothesis (near.near_answer (steady request List.mem_cons_self))
        fun later among => steady later (List.mem_cons_of_mem _ among)

/-- What a place holds after one request. -/
theorem find?_answer
    (near : World.Near territory start world)
    {request : Request}
    (steady : request.IsSteady territory start)
    (place : Place) :
    (world.answer request).2.files.find? place =
      match start.change? request with
      | some change =>
          if place = change.1 then
            some (.file (.text change.2) (world.files.isExecutable change.1))
          else
            world.files.find? place
      | none => world.files.find? place := by
  rw [(world.files_answer request).2, (near.answer_eq steady).2]
  cases isChange : start.change? request with
  | none => rfl
  | some change => exact FileSystem.find?_insert _ (start.ne_nil_of_change? isChange) _ _

/-- A place that is not changed holds what it held. -/
theorem find?_afterAll_of_notMem
    (near : World.Near territory start world)
    (steady : ∀ request ∈ done, request.IsSteady territory start)
    {place : Place}
    (kept : place ∉ (start.changes done).map Prod.fst) :
    (world.afterAll done).files.find? place = world.files.find? place := by
  induction done generalizing world with
  | nil => rfl
  | cons request rest inductionHypothesis =>
      obtain ⟨first, others⟩ := List.forall_mem_cons.mp steady
      have later : place ∉ (start.changes rest).map Prod.fst := fun among =>
        kept (((List.sublist_cons_self request rest).filterMap _).map _ |>.subset among)
      rw [afterAll, List.foldl_cons]
      refine (inductionHypothesis (near.near_answer first) others later).trans ?_
      rw [find?_answer near first]
      cases isChange : start.change? request with
      | none => rfl
      | some change =>
          have apart : place ≠ change.1 := by
            rintro rfl
            exact kept (by simp [changes, isChange])
          exact if_neg apart

/-- A place that is changed once holds the text that was put there. -/
theorem find?_afterAll_of_mem
    (near : World.Near territory start world)
    (steady : ∀ request ∈ done, request.IsSteady territory start)
    (distinct : ((start.changes done).map Prod.fst).Nodup)
    {change : Place × Text}
    (among : change ∈ start.changes done) :
    (world.afterAll done).files.find? change.1 =
      some (.file (.text change.2) (world.files.isExecutable change.1)) := by
  induction done generalizing world with
  | nil => exact absurd among List.not_mem_nil
  | cons request rest inductionHypothesis =>
      obtain ⟨first, others⟩ := List.forall_mem_cons.mp steady
      have after := find?_answer near first change.1
      rw [afterAll, List.foldl_cons]
      -- The request that changes the place is this one or a later one, not both.
      by_cases here : start.change? request = some change
      · have whole : start.changes (request :: rest) = change :: start.changes rest := by
          rw [changes_cons, here]
          rfl
        rw [whole, List.map_cons, List.nodup_cons] at distinct
        refine (find?_afterAll_of_notMem (near.near_answer first) others distinct.1).trans ?_
        rw [after, here]
        exact if_pos rfl
      · have later : change ∈ start.changes rest := by
          obtain ⟨other, made, isChange⟩ := List.mem_filterMap.mp among
          rcases List.mem_cons.mp made with rfl | later
          · exact absurd isChange here
          · exact List.mem_filterMap.mpr ⟨other, later, isChange⟩
        have sublist : (start.changes rest).Sublist (start.changes (request :: rest)) :=
          (List.sublist_cons_self request rest).filterMap _
        refine (inductionHypothesis (near.near_answer first) others
          (distinct.sublist (sublist.map _)) later).trans ?_
        have kept : (world.answer request).2.files.find? change.1 =
            world.files.find? change.1 := by
          rw [after]
          cases isChange : start.change? request with
          | none => rfl
          | some own =>
              have apart : change.1 ≠ own.1 := by
                have whole : start.changes (request :: rest) = own :: start.changes rest := by
                  rw [changes_cons, isChange]
                  rfl
                rw [whole, List.map_cons, List.nodup_cons] at distinct
                exact fun same => distinct.1 (same ▸ List.mem_map_of_mem later)
              exact if_neg apart
        rw [FileSystem.isExecutable, kept, FileSystem.isExecutable]

/-- A path that leads to a place that is changed once reads as the text that was put there. -/
theorem read_afterAll_of_mem
    (near : World.Near territory start world)
    (steady : ∀ request ∈ done, request.IsSteady territory start)
    (distinct : ((start.changes done).map Prod.fst).Nodup)
    {change : Place × Text}
    (among : change ∈ start.changes done)
    {path : Path}
    (leads : start.files.resolve start.cwd path = .ok change.1) :
    (world.afterAll done).files.read (world.afterAll done).cwd path = .ok change.2 := by
  have nearAfter := near_afterAll near steady
  have found := find?_afterAll_of_mem near steady distinct among
  unfold FileSystem.read FileSystem.entryAt
  rw [nearAfter.cwd, nearAfter.agrees.resolve_eq_ok leads]
  simp only [bind, Except.bind, found]

/-- What is done a second time changes nothing. -/
theorem find?_afterAll_afterAll
    (near : World.Near territory start world)
    (steady : ∀ request ∈ done, request.IsSteady territory start)
    (distinct : ((start.changes done).map Prod.fst).Nodup)
    (place : Place) :
    ((world.afterAll done).afterAll done).files.find? place =
      (world.afterAll done).files.find? place := by
  have nearAfter := near_afterAll near steady
  by_cases changed : place ∈ (start.changes done).map Prod.fst
  · obtain ⟨change, among, rfl⟩ := List.mem_map.mp changed
    have once := find?_afterAll_of_mem near steady distinct among
    have same : (world.afterAll done).files.isExecutable change.1 =
        world.files.isExecutable change.1 := by
      rw [FileSystem.isExecutable, once]
    rw [find?_afterAll_of_mem nearAfter steady distinct among, once, same]
  · exact find?_afterAll_of_notMem nearAfter steady changed

end World
end StyleTypings
