import Saganova.OrderService

/-!
# The orchestrator

`apps/saga-orchestrator`: the checkout saga's definition, the repository of
its rows, the state machine, and the consumer of the three event topics.

Every row write is the statement `INSERT ... ON CONFLICT DO UPDATE` on its own,
in no transaction with the publishes around it.
-/

namespace Saganova

open Concurrency

/-- The saga's context is `OrderFulfillmentContext`, a record that every event
payload is spread into: it has the fields of a `Payload`. -/
abbrev OrderFulfillmentContext := Payload

instance : Spread OrderFulfillmentContext := ⟨Payload.spread⟩

/-! ## The definition -/

/-- `compensation/release-inventory.compensator.ts` -/
def buildReleaseInventoryCompensation (ctx : OrderFulfillmentContext) : Except Err Payload :=
  match ctx.reservationId.filter (· ≠ "") with
  | none =>
    let orderId := ctx.orderId.getD "undefined"
    throw (.error (s!"Cannot release inventory for order {orderId}: " ++
      "no reservationId in saga context (this indicates the inventory step's success event " ++
      "never populated it - a bug upstream)."))
  | some reservationId => pure { orderId := ctx.orderId, reservationId := some reservationId }

def reserveInventory : SagaStep OrderFulfillmentContext Payload where
  name := "RESERVE_INVENTORY"
  command := .reserveStock
  buildCommandPayload := fun ctx => .ok { orderId := ctx.orderId, lines := ctx.lines }
  successEvent := .inventoryReserved
  failureEvent := .inventoryReservationFailed
  -- no compensationCommand: if this step is what failed, nothing was reserved

def authorizePayment : SagaStep OrderFulfillmentContext Payload where
  name := "AUTHORIZE_PAYMENT"
  command := .authorizePayment
  buildCommandPayload := fun ctx =>
    .ok { orderId := ctx.orderId, customerId := ctx.customerId, amountCents := ctx.amountCents }
  successEvent := .paymentAuthorized
  failureEvent := .paymentDeclined
  compensationCommand := some .releaseInventory
  buildCompensationPayload := some buildReleaseInventoryCompensation

def orderFulfillmentSaga : SagaDefinition OrderFulfillmentContext Payload where
  name := "order-fulfillment"
  steps := [reserveInventory, authorizePayment]

/-! ## Repository and producer -/

abbrev SagaSnapshot := SagaInstanceSnapshot OrderFulfillmentContext

namespace SagaInstanceRepository

def findById (sagaId : String) : Handler (Option SagaInstanceRow) :=
  .select fun db => Store.row db (.sagaInstance sagaId)

def toSnapshot (sagaId : String) (entity : SagaInstanceRow) : SagaSnapshot where
  sagaId := sagaId
  definitionName := entity.definitionName
  currentStepIndex := entity.currentStepIndex
  status := entity.status
  context := entity.context
  history := entity.history

def toRow (snapshot : SagaSnapshot) (correlationId : String) : SagaInstanceRow where
  definitionName := snapshot.definitionName
  currentStepIndex := snapshot.currentStepIndex
  status := snapshot.status
  context := snapshot.context
  history := snapshot.history
  correlationId := correlationId

def save (snapshot : SagaSnapshot) (correlationId : String) : Handler Unit :=
  Proc.transaction (upsert (.sagaInstance snapshot.sagaId)
    (insert (.sagaInstance snapshot.sagaId) (toRow snapshot correlationId))
    fun _ => toRow snapshot correlationId)

end SagaInstanceRepository

def SagaCommandProducer.publish (commandType : CommandType) (payload : Option Payload)
    (correlationId : String) : Handler Unit := do
  let payload ← field payload
  let command ← makeCommand commandType correlationId payload
  Saganova.publish .sagaCommands (.command command) (payload.orderId.getD command.id)

/-! ## The state machine -/

namespace SagaStateMachine

def start (orderId : Uuid) (customerId : Option Uuid) (lines : List ReservationLine)
    (amountCents : Option Num) (correlationId : String) : Handler Unit := do
  match ← SagaInstanceRepository.findById orderId with
  | some _ => pure ()
  | none =>
    let context : OrderFulfillmentContext :=
      { orderId := some orderId, customerId, lines := some lines, amountCents }
    let snapshot ← CompensationRegistry.start orderFulfillmentSaga SagaCommandProducer.publish now
      orderId correlationId context
    SagaInstanceRepository.save snapshot correlationId

def onSagaCompleted (snapshot : SagaSnapshot) (correlationId : String) : Handler Unit :=
  SagaCommandProducer.publish .confirmOrder
    (some { orderId := snapshot.context.orderId, paymentId := snapshot.context.paymentId })
    correlationId

def onSagaCompensated (snapshot : SagaSnapshot) (correlationId : String) : Handler Unit :=
  let step := (snapshot.history.getLast?.map (·.step)).getD "unknown"
  SagaCommandProducer.publish .cancelOrder
    (some { orderId := snapshot.context.orderId
            reason := some s!"Saga failed at step \"{step}\"" })
    correlationId

/-- What `onEvent` does once the row is saved. -/
def afterSave (updated : SagaSnapshot) (correlationId : String) : Handler Unit :=
  if updated.status = .completed then
    onSagaCompleted updated correlationId
  else if updated.status = .compensated then
    onSagaCompensated updated correlationId
  else
    pure ()

def onEvent (orderId : Uuid) (eventType : EventType) (correlationId : String)
    (eventPayload : Payload) : Handler Unit := do
  match ← SagaInstanceRepository.findById orderId with
  | none => pure ()
  | some entity =>
    let snapshot := SagaInstanceRepository.toSnapshot orderId entity
    if snapshot.status = .completed ∨ snapshot.status = .compensated then
      pure ()
    else
      let updated ← CompensationRegistry.onEvent orderFulfillmentSaga SagaCommandProducer.publish
        now snapshot eventType correlationId (some eventPayload)
      SagaInstanceRepository.save updated correlationId
      afterSave updated correlationId

end SagaStateMachine

def SagaEventConsumer.dispatch (envelope : EventEnvelope) : Handler Unit := do
  let p := envelope.payload
  if envelope.type = .orderCreated then
    let items ← field p.items
    let lines := items.map fun i => { sku := i.sku, qty := i.qty : ReservationLine }
    SagaStateMachine.start (← field p.orderId) p.customerId lines p.totalCents
      envelope.correlationId
  else
    -- `!orderId`: undefined or the empty string
    match p.orderId.filter (· ≠ "") with
    | none => pure ()
    | some orderId => SagaStateMachine.onEvent orderId envelope.type envelope.correlationId p

end Saganova
