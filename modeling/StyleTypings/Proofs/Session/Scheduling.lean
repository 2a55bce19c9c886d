import Mathlib.Algebra.Ring.Nat
import Mathlib.Data.Fintype.EquivFin
import Mathlib.Data.List.Nodup
import Mathlib.Logic.Function.Basic
import StyleTypings.Proofs.Files.Requests
import StyleTypings.Session.Batch

/-!
# Pools of tasks

A batch spawns a task for every file. A task waits for a permit, of which there are only so
many, and asks for one thing at a time while it holds one; it gives the permit back with its
value. Once all are spawned, finished tasks are joined in whatever order they come. A task is
known by its id alone, under which its file was put down.

Every step is one less to go, so no schedule goes on forever. What undisturbed tasks come to,
and which requests they make, stays the same at every step, so all schedules end alike up to
the order of the requests.
-/

namespace StyleTypings
namespace Batch

/-- A task of a pool. -/
inductive Task (α : Type)
  /-- It waits for a permit. -/
  | waiting (action : Action α)
  /-- It holds a permit. -/
  | running (action : Action α)
  /-- It has its value and holds no permit any more. -/
  | finished (value : α)

/-- A batch under way. -/
structure Pool (α : Type) where
  world : World
  /-- The files for which no task was spawned yet. -/
  unspawned : List Path
  /-- The tasks that were not joined yet, by their ids. -/
  tasks : List (Nat × Task α)
  /-- The files put down under ids. -/
  files : Nat → Option Path
  /-- The results, in the order in which their tasks were joined. -/
  results : List (Path × α)

variable {α : Type}

/-- Undisturbed tasks that are done one after the other come to what they come to by
themselves, and they make the same requests. -/
theorem run_labelled
    {start world : World}
    {near : World → Prop}
    {free : Action α → Prop}
    {task : Path → Action α}
    {files : List Path}
    (undisturbed : Action.Undisturbed start near free)
    (areFree : ∀ file ∈ files, free (task file))
    (isNear : near world) :
    ((Action.forEach (labelled task) files).run world).1 =
        files.map (fun file => (file, ((task file).run start).1)) ∧
      (Action.forEach (labelled task) files).requests world =
        files.flatMap fun file => (task file).requests start := by
  induction files generalizing world with
  | nil => exact ⟨rfl, rfl⟩
  | cons file rest inductionHypothesis =>
      obtain ⟨first, others⟩ := List.forall_mem_cons.mp areFree
      obtain ⟨value, requests, nearAfter⟩ :=
        undisturbed.eq_of_near first isNear undisturbed.begins
      obtain ⟨values, requestsAfter⟩ := inductionHypothesis others nearAfter
      have own : (labelled task file).run world =
          ((file, ((task file).run start).1), ((task file).run world).2) := by
        rw [labelled, Action.run_bind, Action.run_done, value]
      have ownRequests : (labelled task file).requests world = (task file).requests start := by
        rw [labelled, Action.requests_bind, Action.requests_done, List.append_nil, requests]
      constructor
      · rw [Action.forEach, Action.run_bind, Action.run_bind, Action.run_done, own, values,
          List.map_cons]
      · rw [Action.forEach, Action.requests_bind, Action.requests_bind, Action.requests_done,
          List.append_nil, own, ownRequests, requestsAfter, List.flatMap_cons]

/-- The messages of tasks whose requests were made in some order. -/
theorem shown_of_perm
    {start : World}
    {task : Path → Action α}
    {files : List Path}
    {done : List Request}
    (requests : done.Perm (files.flatMap fun file => (task file).requests start)) :
    (done.flatMap Request.shown).Perm (files.flatMap fun file => (task file).shown start) := by
  refine (requests.flatMap_right Request.shown).trans ?_
  rw [List.flatMap_assoc]
  exact List.Perm.flatMap_left files fun file _ => ((task file).shown_perm start).symm

namespace Task

/-- Whether a task holds a permit. -/
def isRunning : Task α → Bool
  | .running _ => true
  | _ => false

/-- A step of a task in a world while some permits are free. -/
inductive Moves (world : World) (permits : Nat) : Task α → World → Task α → Prop
  | acquire
      {action : Action α}
      (free : 0 < permits) :
      Moves world permits (.waiting action) world (.running action)
  | ask
      {request : Request}
      {next : request.Answer → Action α} :
      Moves world permits (.running (.ask request next)) (world.answer request).2
        (.running (next (world.answer request).1))
  | finish
      {value : α} :
      Moves world permits (.running (.done value)) world (.finished value)

end Task

namespace Pool

/-- The number of tasks that hold a permit. -/
def running (tasks : List (Nat × Task α)) : Nat :=
  tasks.countP fun entry => entry.2.isRunning

/-- A step of a batch that may hold a limited number of permits at a time. -/
inductive Step (task : Path → Action α) (limit : Nat) : Pool α → Pool α → Prop
  | spawn
      {world : World}
      {file : Path}
      {unspawned : List Path}
      {tasks : List (Nat × Task α)}
      {files : Nat → Option Path}
      {results : List (Path × α)}
      {id : Nat}
      (fresh : id ∉ tasks.map Prod.fst) :
      Step task limit ⟨world, file :: unspawned, tasks, files, results⟩
        ⟨world, unspawned, tasks ++ [(id, .waiting (task file))],
          Function.update files id (some file), results⟩
  | move
      {world after : World}
      {unspawned : List Path}
      {before behind : List (Nat × Task α)}
      {id : Nat}
      {state next : Task α}
      {files : Nat → Option Path}
      {results : List (Path × α)}
      (moves : state.Moves world (limit - running (before ++ (id, state) :: behind)) after
        next) :
      Step task limit ⟨world, unspawned, before ++ (id, state) :: behind, files, results⟩
        ⟨after, unspawned, before ++ (id, next) :: behind, files, results⟩
  | join
      {world : World}
      {before behind : List (Nat × Task α)}
      {id : Nat}
      {value : α}
      {files : Nat → Option Path}
      {results : List (Path × α)} :
      Step task limit ⟨world, [], before ++ (id, .finished value) :: behind, files, results⟩
        ⟨world, [], before ++ behind, Function.update files id none,
          results ++ (files id).toList.map fun file => (file, value)⟩

/-- A number of steps, one after the other. -/
inductive Runs (task : Path → Action α) (limit : Nat) : Nat → Pool α → Pool α → Prop
  | nil (pool : Pool α) : Runs task limit 0 pool pool
  | step
      {count : Nat}
      {pool last next : Pool α}
      (runs : Runs task limit count pool last)
      (step : Step task limit last next) :
      Runs task limit (count + 1) pool next

/-- A batch before its first task is spawned. -/
def initial (world : World) (files : List Path) : Pool α :=
  ⟨world, files, [], fun _ => none, []⟩

/-- All tasks were spawned and joined. -/
def IsFinished (pool : Pool α) : Prop :=
  pool.unspawned = [] ∧ pool.tasks = []

end Pool

/-! ## Steps of a task -/

namespace Task

/-- What a task comes to by itself. -/
def value (world : World) : Task α → α
  | .waiting action | .running action => (action.run world).1
  | .finished value => value

/-- The requests that a task has still to make. -/
def requests (world : World) : Task α → List Request
  | .waiting action | .running action => action.requests world
  | .finished _ => []

/-- The number of steps left, the joining included. -/
def steps (world : World) : Task α → Nat
  | .waiting action => action.asks world + 3
  | .running action => action.asks world + 2
  | .finished _ => 1

/-- What is left of a task is free. -/
def IsFree (free : Action α → Prop) : Task α → Prop
  | .waiting action | .running action => free action
  | .finished _ => True

variable {world start after : World} {near : World → Prop} {free : Action α → Prop}
  {permits : Nat} {task next : Task α}

/-- A step makes the first of the requests that are left, or none. A task comes to the same
after it, and is one step closer to that. -/
theorem Moves.continues
    (moves : task.Moves world permits after next)
    (undisturbed : Action.Undisturbed start near free)
    (isFree : task.IsFree free)
    (isNear : near world) :
    near after ∧ next.IsFree free ∧ next.value start = task.value start ∧
      task.steps start = next.steps start + 1 ∧
        ∃ done, after = world.afterAll done ∧
          task.requests start = done ++ next.requests start := by
  cases moves with
  | acquire => exact ⟨isNear, isFree, rfl, rfl, [], rfl, rfl⟩
  | finish => exact ⟨isNear, trivial, rfl, rfl, [], rfl, rfl⟩
  | @ask request following =>
      obtain ⟨answer, nearAfter, freeAfter⟩ := undisturbed.ask isFree isNear
      obtain ⟨-, nearThere, -⟩ := undisturbed.ask isFree undisturbed.begins
      obtain ⟨values, requests, -⟩ :=
        undisturbed.eq_of_near freeAfter undisturbed.begins nearThere
      rw [← answer] at freeAfter values requests
      refine ⟨nearAfter, freeAfter, ?_, ?_, [request], rfl, ?_⟩
      · rw [value, value, Action.run_ask, ← answer, values]
      · rw [steps, steps, Action.asks, ← answer, ← Action.length_requests,
          ← Action.length_requests, requests]
      · rw [Task.requests, Task.requests, Action.requests_ask, ← answer, ← requests]
        rfl

end Task

/-! ## Steps of a pool -/

namespace Pool

/-- What the tasks that were not joined will be recorded with. -/
def owed
    (start : World)
    (files : Nat → Option Path)
    (tasks : List (Nat × Task α)) : List (Path × α) :=
  tasks.filterMap fun entry => (files entry.1).map fun file => (file, entry.2.value start)

/-- The results that were recorded and those that are to come. -/
def expected (task : Path → Action α) (start : World) (pool : Pool α) : List (Path × α) :=
  pool.results ++ owed start pool.files pool.tasks ++
    pool.unspawned.map fun file => (file, ((task file).run start).1)

/-- The requests that are to come. -/
def pending (task : Path → Action α) (start : World) (pool : Pool α) : List Request :=
  (pool.tasks.flatMap fun entry => entry.2.requests start) ++
    pool.unspawned.flatMap fun file => (task file).requests start

/-- The number of steps to come. -/
def steps (task : Path → Action α) (start : World) (pool : Pool α) : Nat :=
  (pool.unspawned.map fun file => (task file).asks start + 4).sum +
    (pool.tasks.map fun entry => entry.2.steps start).sum

/-- The world is near the start, ids are told apart, and tasks are free. -/
structure Sound
    (near : World → Prop)
    (free : Action α → Prop)
    (pool : Pool α) : Prop where
  isNear : near pool.world
  distinct : (pool.tasks.map Prod.fst).Nodup
  areFree : ∀ entry ∈ pool.tasks, entry.2.IsFree free

/-- What is put down under an id that no task has concerns no task. -/
theorem owed_update
    {tasks : List (Nat × Task α)}
    {id : Nat}
    (absent : id ∉ tasks.map Prod.fst)
    (start : World)
    (files : Nat → Option Path)
    (file : Option Path) :
    owed start (Function.update files id file) tasks = owed start files tasks := by
  refine List.filterMap_congr fun entry present => ?_
  have other : entry.1 ≠ id := fun same => absent (List.mem_map.mpr ⟨entry, present, same⟩)
  rw [Function.update_of_ne other]

theorem owed_append
    (start : World)
    (files : Nat → Option Path)
    (before behind : List (Nat × Task α)) :
    owed start files (before ++ behind) =
      owed start files before ++ owed start files behind :=
  List.filterMap_append

section Steps

variable {task : Path → Action α} {limit : Nat} {start : World} {near : World → Prop}
  {free : Action α → Prop} {pool next : Pool α}

theorem Step.sound
    (step : Step task limit pool next)
    (undisturbed : Action.Undisturbed start near free)
    (areFree : ∀ file ∈ pool.unspawned, free (task file))
    (sound : pool.Sound near free) :
    next.Sound near free := by
  obtain ⟨isNear, distinct, freeTasks⟩ := sound
  cases step with
  | @spawn world file unspawned tasks files results id fresh =>
      refine ⟨isNear, ?_, ?_⟩
      · rw [List.map_append, List.map_singleton, ← List.concat_eq_append]
        exact distinct.concat fresh
      · exact List.forall_mem_append.mpr
          ⟨freeTasks, List.forall_mem_singleton.mpr (areFree file List.mem_cons_self)⟩
  | @move world after unspawned before behind id state later files results moves =>
      obtain ⟨front, back⟩ := List.forall_mem_append.mp freeTasks
      obtain ⟨own, back⟩ := List.forall_mem_cons.mp back
      obtain ⟨nearAfter, freeAfter, -⟩ := moves.continues undisturbed own isNear
      refine ⟨nearAfter, ?_, ?_⟩
      · simpa using distinct
      · exact List.forall_mem_append.mpr ⟨front, List.forall_mem_cons.mpr ⟨freeAfter, back⟩⟩
  | @join world before behind id value files results =>
      have fewer : (before ++ behind).Sublist (before ++ (id, .finished value) :: behind) :=
        (List.Sublist.refl before).append (List.sublist_cons_self _ _)
      exact ⟨isNear, distinct.sublist (fewer.map _),
        fun entry present => freeTasks entry (fewer.subset present)⟩

theorem Step.unspawned_subset (step : Step task limit pool next) :
    next.unspawned ⊆ pool.unspawned := by
  cases step with
  | spawn fresh => exact List.subset_cons_self _ _
  | move moves => exact List.Subset.refl _
  | join => exact List.Subset.refl _

/-- A step makes some of the requests that are to come. It does not change what the results
will be, and there is one less to go. -/
theorem Step.continues
    (step : Step task limit pool next)
    (undisturbed : Action.Undisturbed start near free)
    (sound : pool.Sound near free) :
    (next.expected task start).Perm (pool.expected task start) ∧
      pool.steps task start = next.steps task start + 1 ∧
        ∃ done, next.world = pool.world.afterAll done ∧
          (done ++ next.pending task start).Perm (pool.pending task start) := by
  obtain ⟨isNear, distinct, freeTasks⟩ := sound
  cases step with
  | @spawn world file unspawned tasks files results id fresh =>
      have own : owed start (Function.update files id (some file))
          [(id, .waiting (task file))] = [(file, ((task file).run start).1)] := by
        simp [owed, Task.value]
      refine ⟨?_, ?_, [], rfl, ?_⟩
      · rw [expected, expected, owed_append, owed_update fresh, own]
        simp
      · simp only [steps, List.map_append, List.map_cons, List.sum_cons, List.sum_append,
          Task.steps]
        simp
        omega
      · simp [pending, Task.requests]
  | @move world after unspawned before behind id state later files results moves =>
      obtain ⟨-, back⟩ := List.forall_mem_append.mp freeTasks
      obtain ⟨own, -⟩ := List.forall_mem_cons.mp back
      obtain ⟨-, -, values, numbers, done, isAfter, requests⟩ :=
        moves.continues undisturbed own isNear
      refine ⟨?_, ?_, done, isAfter, ?_⟩
      · simp only [expected, owed, List.filterMap_append, List.filterMap_cons, values]
        exact .refl _
      · simp only [steps, List.map_append, List.map_cons, List.sum_cons, List.sum_append,
          numbers]
        omega
      · simp only [pending, List.flatMap_append, List.flatMap_cons, requests,
          List.append_assoc]
        exact List.perm_append_comm_assoc _ _ _
  | @join world before behind id value files results =>
      have absent : id ∉ (before ++ behind).map Prod.fst := by
        have apart : (before.map Prod.fst ++ id :: behind.map Prod.fst).Nodup := by
          simpa using distinct
        rw [List.map_append]
        exact (List.nodup_middle.mp apart).notMem
      have own : owed start files [(id, .finished value)] =
          (files id).toList.map fun file => (file, value) := by
        cases file : files id <;> simp [owed, file, Task.value]
      have whole : owed start files (before ++ (id, .finished value) :: behind) =
          owed start files before ++
            (((files id).toList.map fun file => (file, value)) ++ owed start files behind) := by
        rw [List.append_cons, owed_append, owed_append, own, List.append_assoc]
      refine ⟨?_, ?_, [], rfl, ?_⟩
      · simp only [expected, owed_update absent, whole, owed_append, List.append_assoc]
        exact .append_left _ (List.perm_append_comm_assoc _ _ _)
      · simp only [steps, List.map_append, List.map_cons, List.sum_cons, List.sum_append,
          Task.steps]
        omega
      · simp [pending, Task.requests]

/-- No more tasks hold a permit than there are permits. -/
theorem Step.running_le
    (step : Step task limit pool next)
    (within : running pool.tasks ≤ limit) :
    running next.tasks ≤ limit := by
  cases step with
  | spawn fresh => simpa [running, Task.isRunning] using within
  | move moves =>
      cases moves with
      | acquire free =>
          simp only [running, List.countP_append, List.countP_cons] at free ⊢
          simp only [Task.isRunning] at free ⊢
          simp at free ⊢
          omega
      | ask => simpa [running, Task.isRunning] using within
      | finish =>
          simp [running, Task.isRunning] at within ⊢
          omega
  | join => simpa [running, Task.isRunning] using within

/-- A batch that is not finished can go on, as long as there are permits at all. -/
theorem exists_step
    (task : Path → Action α)
    (positive : 0 < limit)
    (unfinished : ¬ pool.IsFinished) :
    ∃ next, Step task limit pool next := by
  obtain ⟨world, unspawned, tasks, files, results⟩ := pool
  cases unspawned with
  | cons file unspawned =>
      obtain ⟨id, fresh⟩ := Infinite.exists_notMem_finset (tasks.map Prod.fst).toFinset
      exact ⟨_, .spawn fun present => fresh (List.mem_toFinset.mpr present)⟩
  | nil =>
      by_cases moving : running tasks = 0
      · -- No task holds a permit, so the first can take one or is finished.
        cases tasks with
        | nil => exact absurd ⟨rfl, rfl⟩ unfinished
        | cons entry behind =>
            obtain ⟨id, state⟩ := entry
            cases state with
            | waiting action =>
                have free : 0 < limit - running ((id, .waiting action) :: behind) := by omega
                exact ⟨_, @Step.move _ _ _ _ _ _ [] _ _ _ _ _ _ (.acquire free)⟩
            | running action => simp [running, Task.isRunning] at moving
            | finished value => exact ⟨_, @Step.join _ _ _ _ [] _ _ _ _ _⟩
      · obtain ⟨entry, present, holds⟩ := List.countP_pos_iff.mp (Nat.pos_of_ne_zero moving)
        obtain ⟨id, state⟩ := entry
        obtain ⟨before, behind, rfl⟩ := List.append_of_mem present
        cases state with
        | waiting | finished => exact absurd holds nofun
        | running action =>
            cases action with
            | done value => exact ⟨_, .move .finish⟩
            | ask request next => exact ⟨_, .move .ask⟩

end Steps

/-! ## Schedules -/

section Schedules

variable {task : Path → Action α} {limit count : Nat} {start : World}

/-- However a batch goes, it holds to its limit. -/
theorem Runs.running_le
    {world : World}
    {files : List Path}
    {pool : Pool α}
    (runs : Runs task limit count (initial world files) pool) :
    running pool.tasks ≤ limit := by
  generalize begins : initial world files = first at runs
  induction runs with
  | nil first =>
      rw [← begins]
      exact Nat.zero_le _
  | step _ step inductionHypothesis => exact step.running_le (inductionHypothesis begins)

theorem Runs.continues
    {near : World → Prop}
    {free : Action α → Prop}
    {first pool : Pool α}
    (runs : Runs task limit count first pool)
    (undisturbed : Action.Undisturbed start near free)
    (areFree : ∀ file ∈ first.unspawned, free (task file))
    (sound : first.Sound near free) :
    pool.Sound near free ∧ pool.unspawned ⊆ first.unspawned ∧
      (pool.expected task start).Perm (first.expected task start) ∧
        first.steps task start = pool.steps task start + count ∧
          ∃ done, pool.world = first.world.afterAll done ∧
            (done ++ pool.pending task start).Perm (first.pending task start) := by
  induction runs with
  | nil pool => exact ⟨sound, List.Subset.refl _, .refl _, rfl, [], rfl, .refl _⟩
  | step runs step inductionHypothesis =>
      obtain ⟨soundLast, fewer, results, steps, done, isWorld, requests⟩ :=
        inductionHypothesis areFree sound
      obtain ⟨resultsToo, stepsToo, doneToo, isWorldToo, requestsToo⟩ :=
        step.continues undisturbed soundLast
      refine ⟨step.sound undisturbed (fun file among => areFree file (fewer among)) soundLast,
        fun file among => fewer (step.unspawned_subset among), resultsToo.trans results, ?_,
        done ++ doneToo, ?_, ?_⟩
      · omega
      · rw [isWorldToo, isWorld, World.afterAll_append]
      · rw [List.append_assoc]
        exact (requestsToo.append_left done).trans requests

/-- However undisturbed tasks take their steps, at the end each file has the result of its
task by itself, and the requests made are those that the tasks make by themselves, in some
order. All schedules take as many steps, and while one is under way it takes no more. -/
theorem Runs.serializes
    {near : World → Prop}
    {free : Action α → Prop}
    {files : List Path}
    {pool : Pool α}
    (runs : Runs task limit count (initial start files) pool)
    (undisturbed : Action.Undisturbed start near free)
    (areFree : ∀ file ∈ files, free (task file)) :
    count ≤ (files.map fun file => (task file).asks start + 4).sum ∧
      (pool.IsFinished →
        count = (files.map fun file => (task file).asks start + 4).sum ∧
          pool.results.Perm (files.map fun file => (file, ((task file).run start).1)) ∧
          near pool.world ∧
            ∃ done, pool.world = start.afterAll done ∧
              done.Perm (files.flatMap fun file => (task file).requests start)) := by
  have sound : (initial start files : Pool α).Sound near free :=
    ⟨undisturbed.begins, .nil, nofun⟩
  obtain ⟨soundLast, -, results, steps, done, isWorld, requests⟩ :=
    runs.continues undisturbed areFree sound
  have total : (initial start files).steps task start =
      (files.map fun file => (task file).asks start + 4).sum := by
    simp [initial, Pool.steps]
  refine ⟨by omega, fun finished => ?_⟩
  obtain ⟨world, unspawned, tasks, names, found⟩ := pool
  obtain ⟨rfl, rfl⟩ : unspawned = [] ∧ tasks = [] := finished
  refine ⟨?_, ?_, soundLast.isNear, done, isWorld, ?_⟩
  · rw [← total, steps]
    simp [Pool.steps]
  · simpa [expected, owed, initial] using results
  · simpa [pending, initial] using requests

theorem Runs.bounded
    {files : List Path}
    {pool : Pool α}
    (runs : Runs task limit count (initial start files) pool)
    (harmless : ∀ file, (task file).IsHarmless) :
    count ≤ (files.map fun file => (task file).asks start + 4).sum :=
  (runs.serializes (Action.undisturbed_isHarmless start) fun file _ => harmless file).1

/-- However harmless tasks take their steps, at the end each file has the result of its task
by itself, the messages are those of the tasks by themselves, and the files are as they
were. -/
theorem Runs.finished
    {files : List Path}
    {pool : Pool α}
    (runs : Runs task limit count (initial start files) pool)
    (harmless : ∀ file, (task file).IsHarmless)
    (finished : pool.IsFinished) :
    count = (files.map fun file => (task file).asks start + 4).sum ∧
      pool.results.Perm (files.map fun file => (file, ((task file).run start).1)) ∧
      pool.world.alerts.Perm
        ((files.flatMap fun file => (task file).shown start) ++ start.alerts) ∧
      pool.world.Agrees start := by
  obtain ⟨number, results, agrees, done, isWorld, requests⟩ :=
    (runs.serializes (Action.undisturbed_isHarmless start) fun file _ => harmless file).2 finished
  refine ⟨number, results, ?_, agrees⟩
  rw [isWorld]
  exact (start.alerts_afterAll done).trans ((shown_of_perm requests).append_right _)

end Schedules

end Pool
end Batch
end StyleTypings
