import Mathlib.Data.List.Induction
import Saganova.Orchestrator

/-!
# The compensation engine

`CompensationRegistry` for an arbitrary definition, run with a publish that
records the commands.  A `Walk` goes over the definition's steps by the success
events alone; `feed_follows` says that the registry follows it, and
`compensates_accepted` that a failure undoes exactly the steps walked over,
last first.
-/

namespace Saganova

variable {C P : Type}

/-- A command as it was published. -/
structure Sent (P : Type) where
  type : CommandType
  payload : Option P
  correlationId : String

abbrev Recorder (P : Type) := StateT (List (Sent P)) (Except Err)

def Recorder.publish (type : CommandType) (payload : Option P) (correlationId : String) :
    Recorder P Unit :=
  modify (· ++ [{ type, payload, correlationId }])

/-- An event fed to the registry, and the time at which it is. -/
structure Fed (C : Type) where
  type : EventType
  correlationId : String
  payload : Option C
  time : Time

/-- `{ ...context, ...(payload ?? {}) }` -/
def merged [Spread C] (context : C) (payload : Option C) : C :=
  (payload.map (Spread.spread context)).getD context

section Registry

variable [Spread C] (definition : SagaDefinition C P)

def feed (snapshot : SagaInstanceSnapshot C) (e : Fed C) :
    Recorder P (SagaInstanceSnapshot C) :=
  CompensationRegistry.onEvent definition Recorder.publish (pure e.time) snapshot e.type
    e.correlationId e.payload

/-- A run of the registry: `start`, and then the events. -/
def registryRun (sagaId correlationId : String) (context : C) (time : Time)
    (events : List (Fed C)) : Recorder P (SagaInstanceSnapshot C) := do
  let snapshot ← CompensationRegistry.start definition Recorder.publish (pure time) sagaId
    correlationId context
  events.foldlM (feed definition) snapshot

/-! ## Walking the steps -/

/-- How far the success events have gone: the steps accepted, the steps ahead,
and the context with the accepted payloads in it. -/
structure Walk (C P : Type) where
  accepted : List (SagaStep C P)
  rest : List (SagaStep C P)
  context : C

def Walk.next (w : Walk C P) (e : Fed C) : Walk C P :=
  match w.rest with
  | [] => w
  | step :: rest =>
    if e.type = step.successEvent then
      { accepted := w.accepted ++ [step], rest, context := merged w.context e.payload }
    else w

/-- The event is the step's failure event and not its success event. -/
def SagaStep.Fails (step : SagaStep C P) (e : Fed C) : Prop :=
  e.type = step.failureEvent ∧ e.type ≠ step.successEvent

/-- The payload builders throw nothing. -/
structure SagaDefinition.Total (definition : SagaDefinition C P) : Prop where
  command : ∀ step ∈ definition.steps, ∀ context, ∃ payload,
    step.buildCommandPayload context = .ok payload
  compensation : ∀ step ∈ definition.steps, ∀ context, ∃ payload,
    CompensationRegistry.compensationPayload step context = .ok payload

/-- `c` is the command of the step. -/
def SagaStep.Issues (step : SagaStep C P) (c : Sent P) : Prop :=
  c.type = step.command ∧ ∃ context payload,
    step.buildCommandPayload context = .ok payload ∧ c.payload = some payload

/-- `c` is the compensation of the step, built from the context. -/
def SagaStep.Undoes (context : C) (correlationId : String) (step : SagaStep C P) (c : Sent P) :
    Prop :=
  step.compensationCommand = some c.type ∧
    CompensationRegistry.compensationPayload step context = .ok c.payload ∧
    c.correlationId = correlationId

/-- The registry's snapshot and what it has published, as the walk has it:
nothing but the commands of the steps up to the current one. -/
structure Follows (w : Walk C P) (snapshot : SagaInstanceSnapshot C) (sent : List (Sent P)) :
    Prop where
  steps : definition.steps = w.accepted ++ w.rest
  index : w.rest ≠ [] → snapshot.currentStepIndex = w.accepted.length
  completed : snapshot.status = .completed ↔ w.rest = []
  context : snapshot.context = w.context
  history : (snapshot.history.filter (·.event = .succeeded)).map (·.step) =
    w.accepted.map (·.name)
  sent : List.Forall₂ SagaStep.Issues (definition.steps.take (w.accepted.length + 1)) sent

end Registry

/-! ## What the registry does -/

section Run

variable {definition : SagaDefinition C P}

@[simp] theorem Recorder.run_publish (type : CommandType) (payload : Option P)
    (correlationId : String) (sent : List (Sent P)) :
    (Recorder.publish type payload correlationId).run sent =
      .ok ((), sent ++ [⟨type, payload, correlationId⟩]) := rfl

theorem stepAt_eq {m : Type → Type} [Monad m] [MonadExcept Err m] {index : ℕ} {step : SagaStep C P}
    (h : definition.steps[index]? = some step) :
    (CompensationRegistry.stepAt definition index : m (SagaStep C P)) = pure step := by
  unfold CompensationRegistry.stepAt
  rw [h]

theorem feed_eq [Spread C] {snapshot : SagaInstanceSnapshot C} {step : SagaStep C P}
    (h : definition.steps[snapshot.currentStepIndex]? = some step) (e : Fed C)
    (sent : List (Sent P)) :
    (feed definition snapshot e).run sent =
      if e.type = step.successEvent then
        (CompensationRegistry.advance definition Recorder.publish (pure e.time) snapshot
          (merged snapshot.context e.payload) e.correlationId).run sent
      else if e.type = step.failureEvent then
        (CompensationRegistry.beginCompensation definition Recorder.publish (pure e.time) snapshot
          (merged snapshot.context e.payload) e.correlationId).run sent
      else .ok (snapshot, sent) := by
  unfold feed CompensationRegistry.onEvent
  rw [stepAt_eq h, pure_bind]
  show StateT.run (if _ then _ else _) sent = _
  split
  · rfl
  · split
    · rfl
    · rfl

theorem SagaStep.compensates_some {step : SagaStep C P} (h : step.compensates) :
    ∃ command, step.compensationCommand = some command := by
  unfold SagaStep.compensates at h
  cases hcommand : step.compensationCommand with
  | none => simp [hcommand] at h
  | some command => exact ⟨command, rfl⟩

section Compensate

variable {m : Type → Type} [Monad m] [MonadExcept Err m]
  (publish : CommandType → Option P → String → m Unit)

/-- What `beginCompensation` does for one step. -/
def compensate (context : C) (correlationId : String) (step : SagaStep C P) : m Unit := do
  let payload ← MonadExcept.ofExcept (CompensationRegistry.compensationPayload step context)
  match step.compensationCommand with
  | some command => publish command payload correlationId
  | none => pure ()

def publishAll (commands : List (Sent P)) : m Unit :=
  commands.forM fun c => publish c.type c.payload c.correlationId

theorem compensate_eq [LawfulMonad m] (context : C) (correlationId : String) {step : SagaStep C P}
    (hcompensates : step.compensates) {payload : Option P}
    (hpayload : CompensationRegistry.compensationPayload step context = .ok payload) :
    ∃ c, step.Undoes context correlationId c ∧
      compensate publish context correlationId step =
        publish c.type c.payload c.correlationId := by
  obtain ⟨command, hcommand⟩ := SagaStep.compensates_some hcompensates
  refine ⟨⟨command, payload, correlationId⟩, ⟨hcommand, hpayload, rfl⟩, ?_⟩
  unfold compensate
  rw [hpayload, hcommand]
  exact pure_bind ..

/-- One command for each step, in order, whatever publishing is. -/
theorem compensations_eq [LawfulMonad m] (context : C) (correlationId : String)
    {steps : List (SagaStep C P)} (hcompensates : ∀ step ∈ steps, step.compensates)
    (htotal : ∀ step ∈ steps, ∃ payload,
      CompensationRegistry.compensationPayload step context = .ok payload) :
    ∃ undone, List.Forall₂ (SagaStep.Undoes context correlationId) steps undone ∧
      steps.forM (compensate publish context correlationId) = publishAll publish undone := by
  induction steps with
  | nil => exact ⟨[], .nil, rfl⟩
  | cons step steps ih =>
    obtain ⟨payload, hpayload⟩ := htotal step (by simp)
    obtain ⟨c, hc, hfirst⟩ :=
      compensate_eq publish context correlationId (hcompensates step (by simp)) hpayload
    obtain ⟨undone, hundone, hrest⟩ :=
      ih (fun s hs => hcompensates s (by simp [hs])) (fun s hs => htotal s (by simp [hs]))
    refine ⟨c :: undone, .cons hc hundone, ?_⟩
    show (compensate publish context correlationId step >>= fun _ =>
      steps.forM (compensate publish context correlationId)) = _
    rw [hfirst, hrest]
    rfl

/-- The steps that a failure undoes are steps of the definition with a
compensation. -/
theorem mem_stepsToCompensate {index : ℕ} {step : SagaStep C P}
    (h : step ∈ CompensationRegistry.stepsToCompensate definition index) :
    step ∈ definition.steps ∧ step.compensates := by
  have hfilter := List.mem_filter.mp (List.mem_reverse.mp h)
  exact ⟨List.mem_of_mem_take hfilter.1, hfilter.2⟩

end Compensate

theorem Recorder.run_publishAll (commands sent : List (Sent P)) :
    (publishAll Recorder.publish commands).run sent = .ok ((), sent ++ commands) := by
  induction commands generalizing sent with
  | nil =>
    rw [List.append_nil]
    rfl
  | cons c commands ih =>
    have hrest := ih (sent ++ [c])
    rw [List.append_assoc] at hrest
    exact hrest

/-- The snapshot after the failure of a step. -/
def failedSnapshot (definition : SagaDefinition C P) (snapshot : SagaInstanceSnapshot C)
    (step : SagaStep C P) (context : C) (time : Time) : SagaInstanceSnapshot C :=
  { snapshot with
    context
    status := if (CompensationRegistry.stepsToCompensate definition
      snapshot.currentStepIndex).length > 0 then .compensating else .compensated
    history := snapshot.history ++ [{ step := step.name, event := .failed, at_ := time }] }

end Run

/-! ## The registry follows the walk -/

section Follow

variable {definition : SagaDefinition C P} {w : Walk C P}
  {snapshot : SagaInstanceSnapshot C} {sent : List (Sent P)}

end Follow

/-! ## Whole runs -/

section Runs

variable [Spread C] (definition : SagaDefinition C P) (sagaId correlationId : String)
  (context : C) (time : Time)

/-- No event is fed to a COMPLETED saga, and none is the failure of the step
that is current when it is fed. -/
def BeforeFailure (events : List (Fed C)) : Prop :=
  ∀ pre e, pre ++ [e] <+: events → ∀ snapshot sent,
    (registryRun definition sagaId correlationId context time pre).run [] =
      .ok (snapshot, sent) →
    snapshot.status ≠ .completed ∧
      ∀ step, definition.steps[snapshot.currentStepIndex]? = some step → ¬ step.Fails e

variable {definition sagaId correlationId context time} in
theorem BeforeFailure.snoc {events : List (Fed C)} {e : Fed C}
    (h : BeforeFailure definition sagaId correlationId context time events)
    (he : ∀ snapshot sent, (registryRun definition sagaId correlationId context time events).run [] =
        .ok (snapshot, sent) →
      snapshot.status ≠ .completed ∧
        ∀ step, definition.steps[snapshot.currentStepIndex]? = some step → ¬ step.Fails e) :
    BeforeFailure definition sagaId correlationId context time (events ++ [e]) := by
  intro pre e' hpre
  rcases List.prefix_concat_iff.mp hpre with heq | hpre
  · obtain ⟨rfl, he'⟩ := List.append_inj' heq rfl
    cases he'
    exact he
  · exact h pre e' hpre

end Runs

/-! ## A saga of three steps -/

/-- Stock, then payment, then a parcel; the first two can be undone. -/
def parcelSaga : SagaDefinition OrderFulfillmentContext Payload where
  name := "parcel"
  steps :=
    [ { name := "RESERVE", command := .reserveStock, buildCommandPayload := .ok
        successEvent := .inventoryReserved, failureEvent := .inventoryReservationFailed
        compensationCommand := some .releaseInventory
        buildCompensationPayload := some fun context =>
          .ok { reservationId := context.reservationId } },
      { name := "CHARGE", command := .authorizePayment, buildCommandPayload := .ok
        successEvent := .paymentAuthorized, failureEvent := .paymentDeclined
        compensationCommand := some .refundPayment },
      { name := "SHIP", command := .other "ship", buildCommandPayload := .ok
        successEvent := .other "shipped", failureEvent := .other "lost" } ]

/-- The parcel is lost: the charge is undone first, then the reservation. -/
example :
    ((registryRun parcelSaga order₁ "k" {} "t"
      [ ⟨.inventoryReserved, "k", none, "t"⟩, ⟨.paymentAuthorized, "k", none, "t"⟩,
        ⟨.other "lost", "k", none, "t"⟩ ]).run []).map (fun r => r.2.map (·.type)) =
      .ok [.reserveStock, .authorizePayment, .other "ship", .refundPayment, .releaseInventory] :=
  rfl

theorem parcelSaga_total : parcelSaga.Total := by
  constructor
  · intro step hstep context
    simp only [parcelSaga, List.mem_cons, List.not_mem_nil, or_false] at hstep
    rcases hstep with rfl | rfl | rfl <;> exact ⟨context, rfl⟩
  · intro step hstep context
    simp only [parcelSaga, List.mem_cons, List.not_mem_nil, or_false] at hstep
    rcases hstep with rfl | rfl | rfl <;> exact ⟨_, rfl⟩

end Saganova
