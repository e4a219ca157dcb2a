import Saganova.EventStore

/-!
# The order service and the gateway

The three command handlers of `apps/order-service`, its consumer of
`saga.commands`, and `OrdersService.createOrder` of the api-gateway, which
publishes the first command of every checkout.
-/

namespace Saganova

open Concurrency

structure CreateOrderCommand where
  orderId : Uuid
  customerId : Uuid
  items : List OrderLineItem
  correlationId : String

structure ConfirmOrderCommand where
  orderId : Uuid
  paymentId : Uuid
  correlationId : String

structure CancelOrderCommand where
  orderId : Uuid
  reason : String
  correlationId : String

def CreateOrderHandler.execute (command : CreateOrderCommand) : Handler Unit := do
  let time ← now
  let aggregate :=
    OrderAggregate.createNew command.orderId command.customerId command.items time
  tryCatch (do let _ ← OrderEventStoreRepository.save aggregate command.correlationId) fun
    -- expectedVersion = 0 did not hold: a redelivered message
    | .concurrencyError _ _ => pure ()
    | err => throw err

def ConfirmOrderHandler.execute (command : ConfirmOrderCommand) : Handler Unit := do
  match ← OrderEventStoreRepository.loadAggregate command.orderId with
  | none => throw (.notFound s!"Cannot confirm order {command.orderId}: no such order.")
  | some aggregate =>
    let time ← now
    match OrderAggregate.confirm aggregate command.paymentId time with
    | .error (.orderAlreadyFinalized _ _) => pure ()
    | .error err => throw err
    | .ok aggregate => do let _ ← OrderEventStoreRepository.save aggregate command.correlationId

def CancelOrderHandler.execute (command : CancelOrderCommand) : Handler Unit := do
  match ← OrderEventStoreRepository.loadAggregate command.orderId with
  | none => throw (.notFound s!"Cannot cancel order {command.orderId}: no such order.")
  | some aggregate =>
    let time ← now
    match OrderAggregate.cancel aggregate command.reason time with
    | .error (.orderAlreadyFinalized _ _) => pure ()
    | .error err => throw err
    | .ok aggregate => do let _ ← OrderEventStoreRepository.save aggregate command.correlationId

def OrderKafkaConsumer.dispatch (envelope : CommandEnvelope) : Handler Unit := do
  let p := envelope.payload
  match envelope.type with
  | .createOrder =>
    CreateOrderHandler.execute
      { orderId := ← field p.orderId, customerId := ← field p.customerId
        items := ← field p.items, correlationId := envelope.correlationId }
  | .confirmOrder =>
    ConfirmOrderHandler.execute
      { orderId := ← field p.orderId, paymentId := ← field p.paymentId
        correlationId := envelope.correlationId }
  | .cancelOrder =>
    CancelOrderHandler.execute
      { orderId := ← field p.orderId, reason := ← field p.reason
        correlationId := envelope.correlationId }
  -- commands that other services own
  | _ => pure ()

/-- `makeCommand` -/
def makeCommand (type : CommandType) (correlationId : String) (payload : Payload) :
    Handler CommandEnvelope := do
  let id ← randomUUID
  let issuedAt ← now
  pure { id, type, version := eventEnvelopeVersion, correlationId, issuedAt, payload }

/-- The gateway's part of a checkout. -/
def OrdersService.createOrder (customerId : Uuid) (items : List OrderLineItem)
    (correlationId : String) : Handler Unit := do
  let orderId ← randomUUID
  let command ← makeCommand .createOrder correlationId
    { orderId := some orderId, customerId := some customerId, items := some items }
  publish .sagaCommands (.command command) orderId

end Saganova
