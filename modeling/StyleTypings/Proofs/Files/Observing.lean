import StyleTypings.Files.Action

/-!
# Actions that leave files alone

An action that writes no file and runs no command leaves the files as they are. The answers
that it gets depend on the files and on the working directory, but not on what was shown
before, so it may be interrupted by others of its kind.
-/

namespace StyleTypings

namespace Request

/-- A question about the files. -/
def isQuestion : Request → Bool
  | .kind _ | .read _ | .walk _ _ => true
  | _ => false

/-- A request that writes no file and runs no command. -/
def isHarmless : Request → Bool
  | .write _ _ | .lessc _ _ => false
  | _ => true

theorem isHarmless_of_isQuestion {request : Request} (question : request.isQuestion = true) :
    request.isHarmless = true := by
  cases request <;> first | rfl | exact absurd question nofun

/-- The message that a request shows. -/
def shown : Request → List Alert
  | .alert message => [message]
  | _ => []

theorem shown_of_isQuestion {request : Request} (question : request.isQuestion = true) :
    request.shown = [] := by
  cases request <;> first | rfl | exact absurd question nofun

end Request

namespace World

/-- Two worlds have the same files, seen from the same directory. -/
structure Agrees (world other : World) : Prop where
  files : world.files = other.files
  cwd : world.cwd = other.cwd

theorem Agrees.refl (world : World) : world.Agrees world :=
  ⟨rfl, rfl⟩

theorem Agrees.symm {world other : World} (agrees : world.Agrees other) :
    other.Agrees world :=
  ⟨agrees.files.symm, agrees.cwd.symm⟩

theorem Agrees.trans
    {world other third : World}
    (first : world.Agrees other)
    (second : other.Agrees third) :
    world.Agrees third :=
  ⟨first.files.trans second.files, first.cwd.trans second.cwd⟩

variable {world other : World} {request : Request}

theorem Agrees.answer_eq
    (agrees : world.Agrees other)
    (harmless : request.isHarmless = true) :
    (world.answer request).1 = (other.answer request).1 := by
  have same {β : Type} (look : FileSystem → Place → β) :
      look world.files world.cwd = look other.files other.cwd := by
    rw [agrees.files, agrees.cwd]
  cases request with
  | kind path => exact same fun files cwd => files.kind? cwd path
  | read path => exact same fun files cwd => files.read cwd path
  | walk base pruned => exact same fun files cwd => files.walk cwd base pruned
  | alert | log => rfl
  | write | lessc => exact absurd harmless nofun

theorem agrees_answer (world : World) (harmless : request.isHarmless = true) :
    (world.answer request).2.Agrees world := by
  cases request with
  | write | lessc => exact absurd harmless nofun
  | _ => exact ⟨rfl, rfl⟩

theorem alerts_answer (world : World) (request : Request) :
    (world.answer request).2.alerts = request.shown ++ world.alerts := by
  cases request with
  | write | lessc =>
      simp only [answer]
      split <;> rfl
  | _ => rfl

end World

namespace Action

variable {α β : Type}

/-- The messages that an action shows in a world, the last first. -/
def shown (action : Action α) (world : World) : List Alert :=
  match action with
  | .done _ => []
  | .ask request next =>
      let step := world.answer request
      (next step.1).shown step.2 ++ request.shown

/-- How often an action asks in a world. -/
def asks (action : Action α) (world : World) : Nat :=
  match action with
  | .done _ => 0
  | .ask request next =>
      let step := world.answer request
      (next step.1).asks step.2 + 1

@[simp] theorem shown_done (value : α) (world : World) :
    (Action.done value).shown world = [] := rfl

theorem shown_ask
    (request : Request)
    (next : request.Answer → Action α)
    (world : World) :
    (Action.ask request next).shown world =
      (next (world.answer request).1).shown (world.answer request).2 ++ request.shown := rfl

theorem shown_bind (action : Action α) (next : α → Action β) (world : World) :
    (action.bind next).shown world =
      (next (action.run world).1).shown (action.run world).2 ++ action.shown world := by
  induction action generalizing world with
  | done value => exact (List.append_nil _).symm
  | ask request following inductionHypothesis =>
      rw [bind, shown_ask, inductionHypothesis, shown_ask, run_ask, List.append_assoc]

/-- What has been shown after a run. -/
theorem alerts_run (action : Action α) (world : World) :
    (action.run world).2.alerts = action.shown world ++ world.alerts := by
  induction action generalizing world with
  | done value => rfl
  | ask request next inductionHypothesis =>
      rw [run_ask, inductionHypothesis, World.alerts_answer, shown_ask, List.append_assoc]

/-! ## Requests of a kind -/

/-- An action all of whose requests are of a kind. -/
inductive Only (allowed : Request → Bool) : Action α → Prop
  | done (value : α) : Only allowed (.done value)
  | ask
      {request : Request}
      {next : request.Answer → Action α}
      (first : allowed request = true)
      (later : ∀ answer, Only allowed (next answer)) :
      Only allowed (.ask request next)

namespace Only

variable {allowed : Request → Bool}

theorem request {wanted : Request} (first : allowed wanted = true) :
    Only allowed (Action.request wanted) :=
  .ask first fun answer => .done answer

theorem bind
    {action : Action α}
    {next : α → Action β}
    (only : Only allowed action)
    (later : ∀ value, Only allowed (next value)) :
    Only allowed (action.bind next) := by
  induction only with
  | done value => exact later value
  | ask first _ inductionHypothesis => exact .ask first inductionHypothesis

theorem imp
    {permitted : Request → Bool}
    {action : Action α}
    (only : Only allowed action)
    (implies : ∀ request, allowed request = true → permitted request = true) :
    Only permitted action := by
  induction only with
  | done value => exact .done value
  | ask first _ inductionHypothesis => exact .ask (implies _ first) inductionHypothesis

theorem findFirst
    {test : α → Action Bool}
    (only : ∀ value, Only allowed (test value))
    (values : List α) :
    Only allowed (Action.findFirst test values) := by
  induction values with
  | nil => exact .done none
  | cons value rest inductionHypothesis =>
      refine (only value).bind fun found => ?_
      cases found with
      | true => exact .done (some value)
      | false => exact inductionHypothesis

theorem forEach
    {action : α → Action β}
    (only : ∀ value, Only allowed (action value))
    (values : List α) :
    Only allowed (Action.forEach action values) := by
  induction values with
  | nil => exact .done []
  | cons value rest inductionHypothesis =>
      exact (only value).bind fun result =>
        inductionHypothesis.bind fun results => .done (result :: results)

end Only

/-- An action that only asks about the files. -/
abbrev Inquires (action : Action α) : Prop :=
  Only Request.isQuestion action

/-- An action that writes no file and runs no command. -/
abbrev IsHarmless (action : Action α) : Prop :=
  Only Request.isHarmless action

theorem Inquires.isHarmless {action : Action α} (inquires : action.Inquires) :
    action.IsHarmless :=
  inquires.imp fun _ => Request.isHarmless_of_isQuestion

theorem Inquires.shown_eq_nil
    {action : Action α}
    (inquires : action.Inquires)
    (world : World) :
    action.shown world = [] := by
  induction inquires generalizing world with
  | done value => rfl
  | ask first _ inductionHypothesis =>
      rw [shown_ask, inductionHypothesis, Request.shown_of_isQuestion first]
      rfl

theorem Inquires.run_snd
    {action : Action α}
    (inquires : action.Inquires)
    (world : World) :
    (action.run world).2 = world := by
  induction inquires generalizing world with
  | done value => rfl
  | @ask request next first _ inductionHypothesis =>
      have same : (world.answer request).2 = world := by
        cases request with
        | kind | read | walk => rfl
        | _ => exact absurd first nofun
      rw [run_ask, inductionHypothesis, same]

/-! ## Harmless actions -/

namespace IsHarmless

variable {action : Action α}

theorem agrees_run (harmless : action.IsHarmless) (world : World) :
    (action.run world).2.Agrees world := by
  induction harmless generalizing world with
  | done value => exact .refl world
  | ask first _ inductionHypothesis =>
      exact (inductionHypothesis _ _).trans (world.agrees_answer first)

end IsHarmless
end Action
end StyleTypings
