import Saganova.Orchestrator

/-!
# What the state machine decides

`SagaEventConsumer.dispatch` reads one row and then follows one of seven
courses, each a fixed sequence of publishes and one row write.  `decide` says
which, as a function of the row read and the message, and `perform` is the
sequence.  `dispatch_cases` is the inversion lemma that the orchestrator's
results rest on; none of them unfolds the state machine again.

The saga has two steps and no step before the second declares a compensation,
so a failure at either step is `cancel`: COMPENSATED at once, with `CancelOrder`
the only command.
-/

namespace Saganova

open Concurrency

/-- The steps of a publish. -/
theorem SagaCommandProducer.publish_eq (type : CommandType) (payload : Payload)
    (correlationId : String) :
    SagaCommandProducer.publish type (some payload) correlationId =
      .act .randomUUID fun id => .act .now fun issuedAt =>
        .act (.publish .sagaCommands
          (.command { id, type, version := eventEnvelopeVersion, correlationId, issuedAt, payload })
          (payload.orderId.getD id)) Proc.ofExcept := rfl

inductive Decision where
  /-- nothing is published or saved -/
  | ignore
  | fail (e : Err)
  | start (context : OrderFulfillmentContext)
  /-- an unexpected event: the row is written back as it was read -/
  | resave (row : SagaInstanceRow)
  | advance (row : SagaInstanceRow) (context : OrderFulfillmentContext)
  | complete (row : SagaInstanceRow) (context : OrderFulfillmentContext)
  | cancel (row : SagaInstanceRow) (context : OrderFulfillmentContext) (step : String)

namespace Decision

/-- The rows that are written, given the time they are written at. -/
def startedRow (context : OrderFulfillmentContext) (time : Time) (correlationId : String) :
    SagaInstanceRow where
  definitionName := "order-fulfillment"
  currentStepIndex := 0
  status := .inProgress
  context := context
  history := [{ step := "RESERVE_INVENTORY", event := .started, at_ := time }]
  correlationId := correlationId

def advancedRow (row : SagaInstanceRow) (context : OrderFulfillmentContext) (time : Time)
    (correlationId : String) : SagaInstanceRow where
  definitionName := row.definitionName
  currentStepIndex := 1
  status := .inProgress
  context := context
  history := row.history ++ [{ step := "RESERVE_INVENTORY", event := .succeeded, at_ := time }]
  correlationId := correlationId

def completedRow (row : SagaInstanceRow) (context : OrderFulfillmentContext) (time : Time)
    (correlationId : String) : SagaInstanceRow where
  definitionName := row.definitionName
  currentStepIndex := row.currentStepIndex
  status := .completed
  context := context
  history := row.history ++ [{ step := "AUTHORIZE_PAYMENT", event := .succeeded, at_ := time }]
  correlationId := correlationId

def cancelledRow (row : SagaInstanceRow) (context : OrderFulfillmentContext) (step : String)
    (time : Time) (correlationId : String) : SagaInstanceRow where
  definitionName := row.definitionName
  currentStepIndex := row.currentStepIndex
  status := .compensated
  context := context
  history := row.history ++ [{ step, event := .failed, at_ := time }]
  correlationId := correlationId

def saveRow (orderId : Uuid) (row : SagaInstanceRow) : Handler Unit :=
  Proc.transaction (upsert (.sagaInstance orderId) (insert (.sagaInstance orderId) row)
    fun _ => row)

/-- The course of a decision. -/
def perform (orderId : Uuid) (correlationId : String) : Decision → Handler Unit
  | .ignore => pure ()
  | .fail e => throw e
  | .start context => do
    SagaCommandProducer.publish .reserveStock
      (some { orderId := context.orderId, lines := context.lines }) correlationId
    let time ← now
    saveRow orderId (startedRow context time correlationId)
  | .resave row => saveRow orderId { row with correlationId }
  | .advance row context => do
    let time ← now
    SagaCommandProducer.publish .authorizePayment
      (some { orderId := context.orderId, customerId := context.customerId
              amountCents := context.amountCents }) correlationId
    saveRow orderId (advancedRow row context time correlationId)
  | .complete row context => do
    let time ← now
    saveRow orderId (completedRow row context time correlationId)
    SagaCommandProducer.publish .confirmOrder
      (some { orderId := context.orderId, paymentId := context.paymentId }) correlationId
  | .cancel row context step => do
    let time ← now
    saveRow orderId (cancelledRow row context step time correlationId)
    SagaCommandProducer.publish .cancelOrder
      (some { orderId := context.orderId
              reason := some s!"Saga failed at step \"{step}\"" }) correlationId

end Decision

open Decision

/-- What `start` decides on the row it read. -/
def decideStart (row : Option SagaInstanceRow) (context : OrderFulfillmentContext) : Decision :=
  match row with
  | some _ => .ignore
  | none => .start context

/-- What `onEvent` decides on the row it read. -/
def decideEvent (row : Option SagaInstanceRow) (eventType : EventType)
    (eventPayload : Payload) : Decision :=
  match row with
  | none => .ignore
  | some row =>
    if row.status = .completed ∨ row.status = .compensated then .ignore
    else
      let context := row.context.spread eventPayload
      match row.currentStepIndex with
      | 0 =>
        if eventType = .inventoryReserved then .advance row context
        else if eventType = .inventoryReservationFailed then
          .cancel row context "RESERVE_INVENTORY"
        else .resave row
      | 1 =>
        if eventType = .paymentAuthorized then .complete row context
        else if eventType = .paymentDeclined then .cancel row context "AUTHORIZE_PAYMENT"
        else .resave row
      | _ => .fail (.typeError "Cannot read properties of undefined")

/-- What `onEvent` can decide, and on which events. -/
theorem decideEvent_cases (row : Option SagaInstanceRow) (eventType : EventType)
    (eventPayload : Payload) :
    decideEvent row eventType eventPayload = .ignore ∨
    (∃ e, decideEvent row eventType eventPayload = .fail e) ∨
    ∃ r, row = some r ∧
      (decideEvent row eventType eventPayload = .resave r ∨
      eventType = .inventoryReserved ∧
        decideEvent row eventType eventPayload = .advance r (r.context.spread eventPayload) ∨
      eventType = .paymentAuthorized ∧
        decideEvent row eventType eventPayload = .complete r (r.context.spread eventPayload) ∨
      (eventType = .inventoryReservationFailed ∨ eventType = .paymentDeclined) ∧ ∃ step,
        decideEvent row eventType eventPayload =
          .cancel r (r.context.spread eventPayload) step) := by
  cases row with
  | none => exact .inl rfl
  | some r =>
    simp only [decideEvent]
    split
    · exact .inl rfl
    · refine .inr ?_
      split
      · refine .inr ⟨r, rfl, ?_⟩
        split
        · rename_i htype
          exact .inr (.inl ⟨htype, rfl⟩)
        · split
          · rename_i htype
            exact .inr (.inr (.inr ⟨.inl htype, _, rfl⟩))
          · exact .inl rfl
      · refine .inr ⟨r, rfl, ?_⟩
        split
        · rename_i htype
          exact .inr (.inr (.inl ⟨htype, rfl⟩))
        · split
          · rename_i htype
            exact .inr (.inr (.inr ⟨.inr htype, _, rfl⟩))
          · exact .inl rfl
      · exact .inl ⟨_, rfl⟩

theorem start_eq (orderId : Uuid) (customerId : Option Uuid) (lines : List ReservationLine)
    (amountCents : Option Num) (correlationId : String) :
    SagaStateMachine.start orderId customerId lines amountCents correlationId =
      .read fun db => perform orderId correlationId
        (decideStart (Store.row db (.sagaInstance orderId))
          { orderId := some orderId, customerId, lines := some lines, amountCents }) := by
  unfold SagaStateMachine.start SagaInstanceRepository.findById
  rw [Proc.select_bind]
  congr 1
  funext db
  cases h : Store.row db (.sagaInstance orderId) with
  | some row => rfl
  | none =>
    simp only [CompensationRegistry.start, CompensationRegistry.stepAt, orderFulfillmentSaga,
      List.getElem?_cons_zero, MonadExcept.ofExcept, pure_bind, bind_assoc, decideStart, perform]
    rfl

/-- Nothing follows the save of a row that is not final. -/
theorem afterSave_open (updated : SagaSnapshot) (correlationId : String)
    (hcompleted : updated.status ≠ .completed) (hcompensated : updated.status ≠ .compensated) :
    (do
      SagaInstanceRepository.save updated correlationId
      SagaStateMachine.afterSave updated correlationId) =
    SagaInstanceRepository.save updated correlationId := by
  simp only [SagaStateMachine.afterSave, if_neg hcompleted, if_neg hcompensated, bind_pure_unit]

section Row

variable (orderId : Uuid) (row : SagaInstanceRow) (eventType : EventType) (correlationId : String)
  (eventPayload : Payload)

/-- The part of `onEvent` after the row is read and found open. -/
def reactTo : Handler Unit := do
  let updated ← CompensationRegistry.onEvent orderFulfillmentSaga SagaCommandProducer.publish
    now (SagaInstanceRepository.toSnapshot orderId row) eventType correlationId (some eventPayload)
  SagaInstanceRepository.save updated correlationId
  SagaStateMachine.afterSave updated correlationId

/-- A failure compensates nothing here: no step before the failed one declares
a compensation. -/
theorem stepsToCompensate_eq (index : ℕ) (hindex : index ≤ 1) :
    CompensationRegistry.stepsToCompensate orderFulfillmentSaga index = [] := by
  match index with
  | 0 => rfl
  | 1 => rfl

@[simp] theorem stepAt_zero :
    CompensationRegistry.stepAt (m := Handler) orderFulfillmentSaga 0 = pure reserveInventory := rfl

@[simp] theorem stepAt_one :
    CompensationRegistry.stepAt (m := Handler) orderFulfillmentSaga 1 = pure authorizePayment := rfl

/-- The failure of a step, from the engine to `CancelOrder`. -/
theorem beginCompensation_eq (context : OrderFulfillmentContext)
    (step : SagaStep OrderFulfillmentContext Payload)
    (hstep : CompensationRegistry.stepAt (m := Handler) orderFulfillmentSaga row.currentStepIndex =
      pure step)
    (hindex : row.currentStepIndex ≤ 1) :
    (do
      let updated ← CompensationRegistry.beginCompensation orderFulfillmentSaga
        SagaCommandProducer.publish now (SagaInstanceRepository.toSnapshot orderId row) context
        correlationId
      SagaInstanceRepository.save updated correlationId
      SagaStateMachine.afterSave updated correlationId) =
    perform orderId correlationId (.cancel row context step.name) := by
  simp only [CompensationRegistry.beginCompensation, SagaInstanceRepository.toSnapshot, hstep,
    stepsToCompensate_eq _ hindex, pure_bind, bind_assoc, List.length_nil, perform,
    SagaStateMachine.afterSave, SagaStateMachine.onSagaCompensated, List.getLast?_append,
    List.getLast?_singleton]
  rfl

/-- The success of the first step. -/
theorem advance_reserve (context : OrderFulfillmentContext) (hindex : row.currentStepIndex = 0) :
    (do
      let updated ← CompensationRegistry.advance orderFulfillmentSaga
        SagaCommandProducer.publish now (SagaInstanceRepository.toSnapshot orderId row) context
        correlationId
      SagaInstanceRepository.save updated correlationId
      SagaStateMachine.afterSave updated correlationId) =
    perform orderId correlationId (.advance row context) := by
  have hnext : orderFulfillmentSaga.steps[0 + 1]? = some authorizePayment := rfl
  have hbuild : authorizePayment.buildCommandPayload context =
      .ok { orderId := context.orderId, customerId := context.customerId
            amountCents := context.amountCents } := rfl
  simp only [CompensationRegistry.advance, SagaInstanceRepository.toSnapshot, hindex, stepAt_zero,
    hnext, hbuild, MonadExcept.ofExcept, pure_bind, bind_assoc, perform]
  congr 1
  funext time
  congr 1
  funext _
  exact afterSave_open _ _ (by simp) (by simp)

/-- The success of the last step. -/
theorem advance_authorize (context : OrderFulfillmentContext) (hindex : row.currentStepIndex = 1) :
    (do
      let updated ← CompensationRegistry.advance orderFulfillmentSaga
        SagaCommandProducer.publish now (SagaInstanceRepository.toSnapshot orderId row) context
        correlationId
      SagaInstanceRepository.save updated correlationId
      SagaStateMachine.afterSave updated correlationId) =
    perform orderId correlationId (.complete row context) := by
  have hnext : orderFulfillmentSaga.steps[1 + 1]? = none := rfl
  simp only [CompensationRegistry.advance, SagaInstanceRepository.toSnapshot, hindex, stepAt_one,
    hnext, pure_bind, bind_assoc, perform, completedRow]
  rfl

/-- On an open row `onEvent` follows `decideEvent`. -/
theorem reactTo_eq (hopen : ¬ (row.status = .completed ∨ row.status = .compensated)) :
    reactTo orderId row eventType correlationId eventPayload =
      perform orderId correlationId (decideEvent (some row) eventType eventPayload) := by
  -- the engine's three branches, for a step with its success and failure events
  have branches : ∀ step, CompensationRegistry.stepAt (m := Handler) orderFulfillmentSaga
      row.currentStepIndex = pure step →
      reactTo orderId row eventType correlationId eventPayload =
        if eventType = step.successEvent then (do
          let updated ← CompensationRegistry.advance orderFulfillmentSaga
            SagaCommandProducer.publish now (SagaInstanceRepository.toSnapshot orderId row)
            (row.context.spread eventPayload) correlationId
          SagaInstanceRepository.save updated correlationId
          SagaStateMachine.afterSave updated correlationId)
        else if eventType = step.failureEvent then (do
          let updated ← CompensationRegistry.beginCompensation orderFulfillmentSaga
            SagaCommandProducer.publish now (SagaInstanceRepository.toSnapshot orderId row)
            (row.context.spread eventPayload) correlationId
          SagaInstanceRepository.save updated correlationId
          SagaStateMachine.afterSave updated correlationId)
        else perform orderId correlationId (.resave row) := by
    intro step hstep
    have hstep' : CompensationRegistry.stepAt (m := Handler) orderFulfillmentSaga
        (SagaInstanceRepository.toSnapshot orderId row).currentStepIndex = pure step := hstep
    simp only [reactTo, CompensationRegistry.onEvent, hstep', pure_bind]
    split
    · rfl
    · split
      · rfl
      · rw [pure_bind, afterSave_open _ _ (not_or.mp hopen).1 (not_or.mp hopen).2]
        rfl
  simp only [decideEvent, if_neg hopen]
  match hindex : row.currentStepIndex with
  | 0 =>
    rw [branches reserveInventory (by rw [hindex]; rfl), advance_reserve _ _ _ _ hindex,
      beginCompensation_eq orderId row correlationId _ reserveInventory (by rw [hindex]; rfl)
        (by omega)]
    simp only [reserveInventory, apply_ite (perform orderId correlationId)]
    rfl
  | 1 =>
    rw [branches authorizePayment (by rw [hindex]; rfl), advance_authorize _ _ _ _ hindex,
      beginCompensation_eq orderId row correlationId _ authorizePayment (by rw [hindex]; rfl)
        (by omega)]
    simp only [authorizePayment, apply_ite (perform orderId correlationId)]
    rfl
  | n + 2 =>
    have hstep : CompensationRegistry.stepAt (m := Handler) orderFulfillmentSaga
        (SagaInstanceRepository.toSnapshot orderId row).currentStepIndex =
        throw (.typeError "Cannot read properties of undefined") := by
      rw [show (SagaInstanceRepository.toSnapshot orderId row).currentStepIndex = n + 2 from hindex]
      rfl
    simp only [reactTo, CompensationRegistry.onEvent, hstep]
    rfl

end Row

theorem onEvent_eq (orderId : Uuid) (eventType : EventType) (correlationId : String)
    (eventPayload : Payload) :
    SagaStateMachine.onEvent orderId eventType correlationId eventPayload =
      .read fun db => perform orderId correlationId
        (decideEvent (Store.row db (.sagaInstance orderId)) eventType eventPayload) := by
  unfold SagaStateMachine.onEvent SagaInstanceRepository.findById
  rw [Proc.select_bind]
  congr 1
  funext db
  generalize (Store.row db (.sagaInstance orderId) : Option SagaInstanceRow) = found
  cases found with
  | none => rfl
  | some row =>
    by_cases hfinal : row.status = .completed ∨ row.status = .compensated
    · have hdecide : decideEvent (some row) eventType eventPayload = .ignore := if_pos hfinal
      rw [hdecide]
      exact if_pos hfinal
    · rw [← reactTo_eq orderId row eventType correlationId eventPayload hfinal]
      exact if_neg hfinal

/-! ## The consumer -/

/-- What a message decides: on the row of which order, and how. -/
def decisionOf (envelope : EventEnvelope) : Option (Uuid × (Option SagaInstanceRow → Decision)) :=
  let p := envelope.payload
  if envelope.type = .orderCreated then
    match p.items, p.orderId with
    | some items, some orderId =>
      some (orderId, fun row => decideStart row
        { orderId := some orderId, customerId := p.customerId
          lines := some (items.map fun i => { sku := i.sku, qty := i.qty })
          amountCents := p.totalCents })
    | _, _ => none
  else
    match p.orderId.filter (· ≠ "") with
    | some orderId => some (orderId, fun row => decideEvent row envelope.type p)
    | none => none

/-- **The inversion lemma.**  A delivery reads the row of one order and follows
the decision on it, or reads nothing and ends. -/
theorem dispatch_cases (envelope : EventEnvelope) :
    (decisionOf envelope = none ∧ (SagaEventConsumer.dispatch envelope = pure () ∨
      ∃ e, SagaEventConsumer.dispatch envelope = throw e)) ∨
    ∃ orderId decision, decisionOf envelope = some (orderId, decision) ∧
      SagaEventConsumer.dispatch envelope = .read fun db =>
        perform orderId envelope.correlationId (decision (Store.row db (.sagaInstance orderId))) := by
  unfold decisionOf SagaEventConsumer.dispatch
  by_cases htype : envelope.type = .orderCreated
  · simp only [if_pos htype]
    cases envelope.payload.items with
    | none => exact .inl ⟨rfl, .inr ⟨_, rfl⟩⟩
    | some items =>
      cases envelope.payload.orderId with
      | none => exact .inl ⟨rfl, .inr ⟨_, rfl⟩⟩
      | some orderId => exact .inr ⟨orderId, _, rfl, start_eq _ _ _ _ _⟩
  · simp only [if_neg htype]
    cases envelope.payload.orderId.filter (· ≠ "") with
    | none => exact .inl ⟨rfl, .inl rfl⟩
    | some orderId => exact .inr ⟨orderId, _, rfl, onEvent_eq _ _ _ _⟩

end Saganova
