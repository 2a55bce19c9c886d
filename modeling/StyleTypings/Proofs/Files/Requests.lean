import StyleTypings.Proofs.Files.Observing

/-!
# The requests of an action

The requests that an action makes, one after the other, say all that it does to its world.
They depend on the answers, so an action that gets the same answers makes the same requests
and comes to the same.

An action is undisturbed if the worlds that it may meet give it the answers of the world at
the start. What others do meanwhile then makes no difference to it.
-/

namespace StyleTypings

namespace World

/-- The world after some requests. -/
def afterAll (world : World) (requests : List Request) : World :=
  requests.foldl (fun world request => (world.answer request).2) world

theorem afterAll_append (world : World) (front back : List Request) :
    world.afterAll (front ++ back) = (world.afterAll front).afterAll back :=
  List.foldl_append

theorem alerts_afterAll (world : World) (requests : List Request) :
    (world.afterAll requests).alerts.Perm (requests.flatMap Request.shown ++ world.alerts) := by
  induction requests generalizing world with
  | nil => exact .refl _
  | cons request rest inductionHypothesis =>
      have later := inductionHypothesis (world.answer request).2
      rw [alerts_answer] at later
      rw [List.flatMap_cons, List.append_assoc]
      exact later.trans (List.perm_append_comm_assoc _ _ _)

end World

namespace Action

variable {α β : Type}

/-- The requests that an action makes in a world. -/
def requests (action : Action α) (world : World) : List Request :=
  match action with
  | .done _ => []
  | .ask request next =>
      let step := world.answer request
      request :: (next step.1).requests step.2

@[simp] theorem requests_done (value : α) (world : World) :
    (Action.done value).requests world = [] := rfl

theorem requests_ask
    (request : Request)
    (next : request.Answer → Action α)
    (world : World) :
    (Action.ask request next).requests world =
      request :: (next (world.answer request).1).requests (world.answer request).2 := rfl

theorem requests_bind (action : Action α) (next : α → Action β) (world : World) :
    (action.bind next).requests world =
      action.requests world ++ (next (action.run world).1).requests (action.run world).2 := by
  induction action generalizing world with
  | done value => rfl
  | ask request following inductionHypothesis =>
      rw [bind, requests_ask, inductionHypothesis, requests_ask, run_ask, List.cons_append]

/-- An action does to a world what its requests do. -/
theorem run_snd (action : Action α) (world : World) :
    (action.run world).2 = world.afterAll (action.requests world) := by
  induction action generalizing world with
  | done value => rfl
  | ask request next inductionHypothesis => exact inductionHypothesis _ _

theorem length_requests (action : Action α) (world : World) :
    (action.requests world).length = action.asks world := by
  induction action generalizing world with
  | done value => rfl
  | ask request next inductionHypothesis =>
      exact congrArg Nat.succ (inductionHypothesis _ _)

theorem shown_perm (action : Action α) (world : World) :
    (action.shown world).Perm ((action.requests world).flatMap Request.shown) := by
  induction action generalizing world with
  | done value => exact .refl _
  | ask request next inductionHypothesis =>
      rw [shown_ask, requests_ask, List.flatMap_cons]
      exact ((inductionHypothesis _ _).append_right _).trans List.perm_append_comm

/-- The requests of an action of a kind are of that kind. -/
theorem Only.of_mem_requests
    {allowed : Request → Bool}
    {action : Action α}
    (only : Only allowed action)
    {world : World}
    {request : Request}
    (made : request ∈ action.requests world) :
    allowed request = true := by
  induction only generalizing world with
  | done value => exact absurd made List.not_mem_nil
  | ask first _ inductionHypothesis =>
      rcases List.mem_cons.mp made with rfl | later
      · exact first
      · exact inductionHypothesis _ later

/-! ## Undisturbed actions -/

/-- Free actions get the answers of a start in all worlds near it. -/
structure Undisturbed
    (start : World)
    (near : World → Prop)
    (free : Action α → Prop) : Prop where
  begins : near start
  ask : ∀ {request : Request} {next : request.Answer → Action α} {world : World},
    free (.ask request next) → near world →
      (world.answer request).1 = (start.answer request).1 ∧
        near (world.answer request).2 ∧ free (next (start.answer request).1)

variable {start : World} {near : World → Prop} {free : Action α → Prop}

/-- A free action comes to the same and makes the same requests in all worlds near the start,
and it stays near. -/
theorem Undisturbed.eq_of_near
    (undisturbed : Undisturbed start near free)
    {action : Action α}
    (isFree : free action)
    {world other : World}
    (isNear : near world)
    (isNearToo : near other) :
    (action.run world).1 = (action.run other).1 ∧
      action.requests world = action.requests other ∧ near (action.run world).2 := by
  -- Both worlds give the answers of the start, so both runs go on with the same action.
  induction action generalizing world other with
  | done value => exact ⟨rfl, rfl, isNear⟩
  | ask request next inductionHypothesis =>
      obtain ⟨answer, nearAfter, freeAfter⟩ := undisturbed.ask isFree isNear
      obtain ⟨answerToo, nearAfterToo, -⟩ := undisturbed.ask isFree isNearToo
      rw [run_ask, run_ask, requests_ask, requests_ask, answer, answerToo]
      obtain ⟨values, requests, stays⟩ := inductionHypothesis _ freeAfter nearAfter nearAfterToo
      exact ⟨values, congrArg _ requests, stays⟩

/-- Harmless actions are undisturbed by each other. -/
theorem undisturbed_isHarmless (start : World) :
    Undisturbed start (World.Agrees · start) (IsHarmless : Action α → Prop) where
  begins := .refl start
  ask isFree agrees := by
    cases isFree with
    | ask first later =>
        exact ⟨agrees.answer_eq first, (World.agrees_answer _ first).trans agrees, later _⟩

end Action
end StyleTypings
