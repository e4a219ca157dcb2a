import Saganova.Domain.Errors

/-!
# The saga toolkit

`libs/saga-toolkit`: a saga definition is a list of steps, and
`CompensationRegistry` walks it forward on success events and backward through
compensation commands on a failure.

The registry is written over any monad `m` that can fail with an `Err`;
`publish` and `now` are the effects it is given (`PublishFn`, `new Date()`).
-/

namespace Saganova

/-- `{ ...a, ...b }` of two records of the same declared fields. -/
class Spread (C : Type) where
  spread : C → C → C

/-- One step of a saga.  A missing `compensationCommand` is a step with no
side effect to undo. -/
structure SagaStep (C P : Type) where
  name : String
  command : CommandType
  buildCommandPayload : C → Except Err P
  successEvent : EventType
  failureEvent : EventType
  compensationCommand : Option CommandType := none
  buildCompensationPayload : Option (C → Except Err P) := none

/-- `!!step.compensationCommand`: neither missing nor the empty string. -/
def SagaStep.compensates {C P : Type} (step : SagaStep C P) : Bool :=
  step.compensationCommand.any (· ≠ .other "")

structure SagaDefinition (C P : Type) where
  name : String
  steps : List (SagaStep C P)

inductive SagaStatus where
  | started
  | inProgress
  | completed
  | compensating
  | compensated
  | failed
  deriving DecidableEq, Repr

/-- The `event` of a history entry. -/
inductive StepEvent where
  | started
  | succeeded
  | failed
  deriving DecidableEq, Repr

structure HistoryEntry where
  step : String
  event : StepEvent
  at_ : Time
  deriving DecidableEq, Repr

structure SagaInstanceSnapshot (C : Type) where
  sagaId : String
  definitionName : String
  currentStepIndex : ℕ
  status : SagaStatus
  context : C
  history : List HistoryEntry
  deriving DecidableEq, Repr

namespace CompensationRegistry

variable {C P : Type} {m : Type → Type} [Monad m] [MonadExcept Err m]
  (definition : SagaDefinition C P) (publish : CommandType → Option P → String → m Unit)
  (now : m Time)

/-- `definition.steps[index]`, of which a field is read. -/
def stepAt (index : ℕ) : m (SagaStep C P) :=
  match definition.steps[index]? with
  | some step => pure step
  | none => throw (.typeError "Cannot read properties of undefined")

def start (sagaId correlationId : String) (context : C) : m (SagaInstanceSnapshot C) := do
  let firstStep ← stepAt definition 0
  let payload ← MonadExcept.ofExcept (firstStep.buildCommandPayload context)
  publish firstStep.command (some payload) correlationId
  let time ← now
  pure
    { sagaId, definitionName := definition.name, currentStepIndex := 0, status := .inProgress
      context, history := [{ step := firstStep.name, event := .started, at_ := time }] }

def advance (snapshot : SagaInstanceSnapshot C) (context : C) (correlationId : String) :
    m (SagaInstanceSnapshot C) := do
  let nextIndex := snapshot.currentStepIndex + 1
  let step ← stepAt definition snapshot.currentStepIndex
  let time ← now
  let history := snapshot.history ++ [{ step := step.name, event := .succeeded, at_ := time }]
  match definition.steps[nextIndex]? with
  | none => pure { snapshot with context, status := .completed, history }
  | some nextStep => do
    let payload ← MonadExcept.ofExcept (nextStep.buildCommandPayload context)
    publish nextStep.command (some payload) correlationId
    pure { snapshot with context, currentStepIndex := nextIndex, status := .inProgress, history }

/-- The steps to undo when the one at `index` failed: those before it that
declare a compensation command, last first. -/
def stepsToCompensate (index : ℕ) : List (SagaStep C P) :=
  ((definition.steps.take index).filter (·.compensates)).reverse

/-- `step.buildCompensationPayload?.(context)` -/
def compensationPayload (step : SagaStep C P) (context : C) : Except Err (Option P) :=
  match step.buildCompensationPayload with
  | some build => (build context).map some
  | none => .ok none

def beginCompensation (snapshot : SagaInstanceSnapshot C) (context : C) (correlationId : String) :
    m (SagaInstanceSnapshot C) := do
  let step ← stepAt definition snapshot.currentStepIndex
  let time ← now
  let history := snapshot.history ++ [{ step := step.name, event := .failed, at_ := time }]
  let steps := stepsToCompensate definition snapshot.currentStepIndex
  steps.forM fun step => do
    let payload ← MonadExcept.ofExcept (compensationPayload step context)
    match step.compensationCommand with
    | some command => publish command payload correlationId
    | none => pure ()
  pure
    { snapshot with
      context
      status := if steps.length > 0 then .compensating else .compensated
      history }

def onEvent [Spread C] (snapshot : SagaInstanceSnapshot C) (eventType : EventType)
    (correlationId : String) (eventPayload : Option C) : m (SagaInstanceSnapshot C) := do
  let step ← stepAt definition snapshot.currentStepIndex
  let mergedContext := (eventPayload.map (Spread.spread snapshot.context)).getD snapshot.context
  if eventType = step.successEvent then
    advance definition publish now snapshot mergedContext correlationId
  else if eventType = step.failureEvent then
    beginCompensation definition publish now snapshot mergedContext correlationId
  else
    pure snapshot

def markCompensated (snapshot : SagaInstanceSnapshot C) : SagaInstanceSnapshot C :=
  { snapshot with status := .compensated }

end CompensationRegistry

end Saganova
