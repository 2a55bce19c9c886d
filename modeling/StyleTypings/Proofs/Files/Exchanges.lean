import StyleTypings.Proofs.Files.Steady

/-!
# What an action is answered

An action that asks gets an answer, and goes on with it. The requests of an action with the
answers that it gets are its exchanges. Here the answers may be any: a write can be refused
whatever the files are. The answers of a world are some among these, and what an action wrote
in a world is told by its exchanges there.
-/

namespace StyleTypings

/-- A request and the answer to it. -/
structure Exchange where
  request : Request
  answer : request.Answer

namespace Exchange

/-- A message is shown. -/
def tells (message : Alert) : Exchange :=
  ⟨.alert message, ()⟩

/-- A text is written. -/
def stores (output : Path × Text) : Exchange :=
  ⟨.write output.1 output.2, .ok ()⟩

/-- A text cannot be written. -/
def refuses (output : Path × Text) (problem : FileError) : Exchange :=
  ⟨.write output.1 output.2, .error problem⟩

/-- What is written, and to what path. -/
def written? : Exchange → Option (Path × Text)
  | ⟨.write path text, .ok ()⟩ => some (path, text)
  | _ => none

/-- The message that is shown. -/
def shown (exchange : Exchange) : List Alert :=
  exchange.request.shown

@[simp] theorem written?_tells (message : Alert) : (tells message).written? = none := rfl

@[simp] theorem written?_stores (output : Path × Text) :
    (stores output).written? = some output := rfl

@[simp] theorem written?_refuses (output : Path × Text) (problem : FileError) :
    (refuses output problem).written? = none := rfl

@[simp] theorem shown_tells (message : Alert) : (tells message).shown = [message] := rfl

@[simp] theorem shown_stores (output : Path × Text) : (stores output).shown = [] := rfl

@[simp] theorem shown_refuses (output : Path × Text) (problem : FileError) :
    (refuses output problem).shown = [] := rfl

end Exchange

namespace Action

variable {α β : Type}

theorem bind_assoc
    {γ : Type}
    (action : Action α)
    (next : α → Action β)
    (last : β → Action γ) :
    (action.bind next).bind last = action.bind fun value => (next value).bind last := by
  induction action with
  | done value => rfl
  | ask request following inductionHypothesis =>
      exact congrArg (Action.ask request) (funext inductionHypothesis)

/-- An action gets some answers, one after the other, and comes to a value. -/
inductive Goes : Action α → List Exchange → α → Prop
  | done (value : α) : Goes (.done value) [] value
  | ask
      {request : Request}
      {next : request.Answer → Action α}
      {exchanges : List Exchange}
      {value : α}
      (answer : request.Answer)
      (later : Goes (next answer) exchanges value) :
      Goes (.ask request next) (⟨request, answer⟩ :: exchanges) value

namespace Goes

variable {action : Action α} {exchanges : List Exchange}

theorem of_done {value result : α} (goes : (Action.done value).Goes exchanges result) :
    exchanges = [] ∧ result = value := by
  cases goes
  exact ⟨rfl, rfl⟩

theorem of_request
    {wanted : Request}
    {answer : wanted.Answer}
    (goes : (Action.request wanted).Goes exchanges answer) :
    exchanges = [⟨wanted, answer⟩] := by
  cases goes with
  | ask answer later =>
      obtain ⟨rfl, rfl⟩ := later.of_done
      rfl

/-- Of two actions one after the other, the first one comes to a value with the first answers,
and the second one goes on from there. -/
theorem of_bind
    {next : α → Action β}
    {result : β}
    (goes : (action.bind next).Goes exchanges result) :
    ∃ front back value, exchanges = front ++ back ∧ action.Goes front value ∧
      (next value).Goes back result := by
  induction action generalizing exchanges with
  | done value => exact ⟨[], exchanges, value, rfl, .done value, goes⟩
  | ask request following inductionHypothesis =>
      cases goes with
      | ask answer later =>
          obtain ⟨front, back, value, rfl, first, second⟩ := inductionHypothesis answer later
          exact ⟨_, back, value, rfl, .ask answer first, second⟩

theorem of_only
    {allowed : Request → Bool}
    {value : α}
    (goes : action.Goes exchanges value)
    (only : Only allowed action) :
    ∀ exchange ∈ exchanges, allowed exchange.request = true := by
  induction goes with
  | done value => exact List.forall_mem_nil _
  | ask answer _ inductionHypothesis =>
      cases only with
      | ask first others => exact List.forall_mem_cons.mpr ⟨first, inductionHypothesis (others _)⟩

end Goes

/-! ## The answers of a world -/

/-- The requests that an action makes in a world, with the answers to them. -/
def exchanges (action : Action α) (world : World) : List Exchange :=
  match action with
  | .done _ => []
  | .ask request next =>
      let step := world.answer request
      ⟨request, step.1⟩ :: (next step.1).exchanges step.2

/-- What an action writes in a world, and to what paths. -/
def wrote (action : Action α) (world : World) : List (Path × Text) :=
  (action.exchanges world).filterMap Exchange.written?

theorem exchanges_ask
    (request : Request)
    (next : request.Answer → Action α)
    (world : World) :
    (Action.ask request next).exchanges world =
      ⟨request, (world.answer request).1⟩ ::
        (next (world.answer request).1).exchanges (world.answer request).2 := rfl

theorem exchanges_bind (action : Action α) (next : α → Action β) (world : World) :
    (action.bind next).exchanges world =
      action.exchanges world ++ (next (action.run world).1).exchanges (action.run world).2 := by
  induction action generalizing world with
  | done value => rfl
  | ask request following inductionHypothesis =>
      rw [bind, exchanges_ask, inductionHypothesis, exchanges_ask, run_ask, List.cons_append]

theorem wrote_bind (action : Action α) (next : α → Action β) (world : World) :
    (action.bind next).wrote world =
      action.wrote world ++ (next (action.run world).1).wrote (action.run world).2 := by
  rw [wrote, exchanges_bind, List.filterMap_append]
  rfl

/-- A run in a world is among those with any answers. -/
theorem goes_run (action : Action α) (world : World) :
    action.Goes (action.exchanges world) (action.run world).1 := by
  induction action generalizing world with
  | done value => exact .done value
  | ask request next inductionHypothesis => exact .ask _ (inductionHypothesis _ _)

/-- The messages shown in a world are those of the exchanges, the last first. -/
theorem shown_eq (action : Action α) (world : World) :
    action.shown world = ((action.exchanges world).flatMap Exchange.shown).reverse := by
  have single (request : Request) : request.shown.reverse = request.shown := by
    cases request <;> rfl
  induction action generalizing world with
  | done value => rfl
  | ask request next inductionHypothesis =>
      rw [shown_ask, exchanges_ask, inductionHypothesis, List.flatMap_cons, List.reverse_append,
        Exchange.shown, single]

/-- An action that only asks about the files writes nothing. -/
theorem Inquires.wrote_eq_nil {action : Action α} (inquires : action.Inquires) (world : World) :
    action.wrote world = [] := by
  refine List.filterMap_eq_nil_iff.mpr fun exchange made => ?_
  have question := (action.goes_run world).of_only inquires exchange made
  obtain ⟨request, answer⟩ := exchange
  cases request with
  | write path text => exact absurd question nofun
  | _ => rfl

end Action

/-! ## What was written -/

namespace World

/-- A text is written just if it changes the files, and it does so where its path leads. -/
theorem written?_answer (world : World) (request : Request) :
    (Exchange.written? ⟨request, (world.answer request).1⟩).map
        (Prod.map (world.files.resolve world.cwd) id) =
      (world.change? request).map (Prod.map .ok id) := by
  cases request with
  | write path text =>
      rcases world.answer_write path text with
        ⟨problem, fails, kept⟩ | ⟨place, leads, written, change⟩
      · rw [fails, kept]
        rfl
      · rw [written, change]
        simp [Exchange.written?, leads]
  | _ => rfl

end World

namespace Action

variable {α : Type}

theorem wrote_ask
    (request : Request)
    (next : request.Answer → Action α)
    (world : World) :
    (Action.ask request next).wrote world =
      (Exchange.written? ⟨request, (world.answer request).1⟩).toList ++
        (next (world.answer request).1).wrote (world.answer request).2 := by
  rw [wrote, exchanges_ask, List.filterMap_cons]
  cases Exchange.written? ⟨request, (world.answer request).1⟩ <;> rfl

/-- The files stay as they are if nothing is written. -/
theorem files_run_of_wrote
    {action : Action α}
    {world : World}
    (nothing : action.wrote world = []) :
    (action.run world).2.files = world.files := by
  induction action generalizing world with
  | done value => rfl
  | ask request next inductionHypothesis =>
      rw [wrote_ask, List.append_eq_nil_iff, Option.toList_eq_nil_iff] at nothing
      obtain ⟨unwritten, later⟩ := nothing
      have unchanged : world.change? request = none := by
        have same := world.written?_answer request
        rw [unwritten] at same
        exact Option.map_eq_none_iff.mp same.symm
      rw [run_ask, inductionHypothesis _ later, (world.files_answer request).2, unchanged]

/-- What a steady action writes is what it changes, each text at the place where its path
leads. -/
theorem Steady.wrote_eq
    {territory : Place → Prop}
    {start : World}
    (noDirectory : ∀ place, territory place → start.files.find? place ≠ some .directory)
    {action : Action α}
    (steady : action.Steady territory start)
    {world : World}
    (near : World.Near territory start world) :
    (action.wrote world).map (Prod.map (start.files.resolve start.cwd) id) =
      (start.changes (action.requests start)).map (Prod.map .ok id) := by
  -- The answers are those of the start in all worlds near it, so each step is taken there.
  induction steady generalizing world with
  | done value => rfl
  | @ask request next first steady inductionHypothesis =>
      obtain ⟨answer, -⟩ := near.answer_eq first
      obtain ⟨-, requests, -⟩ := steady.eq_of_near noDirectory <|
        (undisturbed_steady (α := α) noDirectory).begins.near_answer first
      have here := start.written?_answer request
      have later := inductionHypothesis (near.near_answer first)
      rw [wrote_ask, answer, requests_ask, requests, World.changes_cons, List.map_append,
        List.map_append, later, ← Option.toList_map, ← Option.toList_map, here]

end Action

/-! ## What stays as it was -/

/-- A request that runs no command and leaves no line in the log. -/
def Request.isQuiet : Request → Bool
  | .lessc _ _ | .log _ => false
  | _ => true

/-- A quiet request changes the files, or shows a message. -/
theorem World.exists_answer
    (world : World)
    {request : Request}
    (quiet : request.isQuiet = true) :
    ∃ files alerts, (world.answer request).2 = { world with files, alerts } := by
  cases request with
  | write path text =>
      cases written : world.files.write world.cwd path text with
      | ok files => exact ⟨files, world.alerts, by rw [answer, written]⟩
      | error problem => exact ⟨world.files, world.alerts, by rw [answer, written]⟩
  | alert message => exact ⟨world.files, _, rfl⟩
  | lessc | log => cases quiet
  | _ => exact ⟨world.files, world.alerts, rfl⟩

/-- Quiet requests change the files and show messages, and do nothing else. -/
theorem Action.Only.exists_run
    {α : Type}
    {action : Action α}
    (quiet : Only Request.isQuiet action)
    (world : World) :
    ∃ files alerts, (action.run world).2 = { world with files, alerts } := by
  induction quiet generalizing world with
  | done value => exact ⟨world.files, world.alerts, rfl⟩
  | ask first _ inductionHypothesis =>
      obtain ⟨files, alerts, answered⟩ := world.exists_answer first
      rw [run_ask, answered]
      exact inductionHypothesis _ _

end StyleTypings
