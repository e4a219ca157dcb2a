import Saganova.EventStore

/-!
# The payment service

The two command handlers of `apps/payment-service` and its consumer of
`saga.commands`.
-/

namespace Saganova

open Concurrency

structure AuthorizePaymentCommand where
  orderId : Uuid
  customerId : Uuid
  amountCents : Num
  correlationId : String

structure RefundPaymentCommand where
  orderId : Uuid
  paymentId : Uuid
  amountCents : Num
  correlationId : String

/-- The key the gateway deduplicates charges by, stable across redeliveries. -/
def idempotencyKey (orderId : Uuid) : String := s!"authorize:{orderId}"

/-- The payment that a result of the gateway is recorded as. -/
def AuthorizePaymentHandler.aggregate (command : AuthorizePaymentCommand) (paymentId : Uuid)
    (result : AuthorizeResult) (time : Time) : PaymentAggregate :=
  if result.success then
    PaymentAggregate.authorize paymentId command.orderId command.customerId command.amountCents
      result.pspReference time
  else
    PaymentAggregate.decline paymentId command.orderId (result.declineCode.getD "unknown")
      (result.reason.getD "Payment declined") time

def AuthorizePaymentHandler.execute (command : AuthorizePaymentCommand) : Handler Unit := do
  match ← PaymentProjectionRepository.findByOrderId command.orderId with
  | some _ => pure ()
  | none =>
    let paymentId ← randomUUID
    let result ← PaymentGateway.authorize
      { orderId := command.orderId, customerId := command.customerId
        amountCents := command.amountCents, idempotencyKey := idempotencyKey command.orderId }
    let time ← now
    let _ ← PaymentEventStoreRepository.save
      (AuthorizePaymentHandler.aggregate command paymentId result time) command.correlationId

def RefundPaymentHandler.execute (command : RefundPaymentCommand) : Handler Unit := do
  match ← PaymentEventStoreRepository.loadAggregate command.paymentId with
  | none => throw (.notFound s!"Cannot refund payment {command.paymentId}: no such payment.")
  | some aggregate =>
    -- `!pspReference`: undefined or the empty string
    match aggregate.state.pspReference.filter (· ≠ "") with
    | none =>
      throw (.error s!"Payment {command.paymentId} has no pspReference to refund against.")
    | some pspReference =>
      let refunded ← tryCatch
        (do
          let _ ← PaymentGateway.refund pspReference command.amountCents "Saga compensation"
          let time ← now
          let refunded ← Proc.ofExcept (PaymentAggregate.refund aggregate
            "Saga compensation: a later saga step failed" time)
          pure (some refunded))
        fun
        | .paymentAlreadyFinalized _ _ => pure none
        | err => throw err
      match refunded with
      | none => pure ()
      | some aggregate => do
        let _ ← PaymentEventStoreRepository.save aggregate command.correlationId

def PaymentKafkaConsumer.dispatch (envelope : CommandEnvelope) : Handler Unit := do
  let p := envelope.payload
  match envelope.type with
  | .authorizePayment =>
    AuthorizePaymentHandler.execute
      { orderId := ← field p.orderId, customerId := ← field p.customerId
        amountCents := ← field p.amountCents, correlationId := envelope.correlationId }
  | .refundPayment =>
    RefundPaymentHandler.execute
      { orderId := ← field p.orderId, paymentId := ← field p.paymentId
        amountCents := ← field p.amountCents, correlationId := envelope.correlationId }
  -- commands that other services own
  | _ => pure ()

end Saganova
