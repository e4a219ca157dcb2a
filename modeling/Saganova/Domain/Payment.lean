import Saganova.Domain.Errors
import Saganova.EventSourcing

/-!
# The payment aggregate

`apps/payment-service/src/domain/payment.aggregate.ts`.
-/

namespace Saganova

structure PaymentAuthorizedPayload where
  paymentId : Uuid
  orderId : Uuid
  amountCents : Num
  pspReference : Option String
  deriving DecidableEq, Repr

structure PaymentDeclinedPayload where
  paymentId : Uuid
  orderId : Uuid
  customerId : Option Uuid := none
  declineCode : String
  reason : String
  deriving DecidableEq, Repr

structure PaymentRefundedPayload where
  paymentId : Uuid
  orderId : Uuid
  customerId : Option Uuid := none
  amountCents : Num
  reason : Option String := none
  deriving DecidableEq, Repr

inductive PaymentEvent where
  | paymentAuthorized (p : PaymentAuthorizedPayload)
  | paymentDeclined (p : PaymentDeclinedPayload)
  | paymentRefunded (p : PaymentRefundedPayload)
  deriving DecidableEq, Repr

def PaymentEvent.type : PaymentEvent → EventType
  | .paymentAuthorized _ => .paymentAuthorized
  | .paymentDeclined _ => .paymentDeclined
  | .paymentRefunded _ => .paymentRefunded

/-- The JSON object of the payload. -/
def PaymentEvent.payload : PaymentEvent → Payload
  | .paymentAuthorized p =>
    { paymentId := some p.paymentId, orderId := some p.orderId, amountCents := some p.amountCents,
      pspReference := p.pspReference }
  | .paymentDeclined p =>
    { paymentId := some p.paymentId, orderId := some p.orderId, customerId := p.customerId,
      declineCode := some p.declineCode, reason := some p.reason }
  | .paymentRefunded p =>
    { paymentId := some p.paymentId, orderId := some p.orderId, customerId := p.customerId,
      amountCents := some p.amountCents, reason := p.reason }

structure PaymentState where
  status : PaymentStatus
  orderId : Uuid
  customerId : Option Uuid := none
  amountCents : Num
  pspReference : Option String := none
  declineCode : Option String := none
  reason : Option String := none
  deriving DecidableEq, Repr

abbrev PaymentAggregate := AggregateRoot PaymentState PaymentEvent

namespace PaymentAggregate

def blankState : PaymentState := { status := .uninitialized, orderId := "", amountCents := 0 }

def when (state : PaymentState) : PaymentEvent → PaymentState
  | .paymentAuthorized p =>
    { state with status := .authorized, orderId := p.orderId, amountCents := p.amountCents,
                 pspReference := p.pspReference }
  | .paymentDeclined p =>
    { state with status := .declined, orderId := p.orderId, declineCode := some p.declineCode,
                 reason := some p.reason }
  | .paymentRefunded p =>
    { state with status := .refunded, reason := p.reason <|> state.reason }

def blank (paymentId : Uuid) : PaymentAggregate := { id := paymentId, state := blankState }

/-- `pspReference` is cast to `string` by the handler, and may be undefined. -/
def authorize (paymentId orderId _customerId : Uuid) (amountCents : Num)
    (pspReference : Option String) (now : Time) : PaymentAggregate :=
  (blank paymentId).apply when
    (.paymentAuthorized { paymentId, orderId, amountCents, pspReference }) now

def decline (paymentId orderId : Uuid) (declineCode reason : String) (now : Time) :
    PaymentAggregate :=
  (blank paymentId).apply when (.paymentDeclined { paymentId, orderId, declineCode, reason }) now

def refund (a : PaymentAggregate) (reason : Option String) (now : Time) :
    Except Err PaymentAggregate :=
  if a.state.status ≠ .authorized then
    throw (.paymentAlreadyFinalized a.id a.state.status)
  else
    pure (a.apply when
      (.paymentRefunded { paymentId := a.id, orderId := a.state.orderId,
                          amountCents := a.state.amountCents, reason }) now)

end PaymentAggregate

end Saganova
