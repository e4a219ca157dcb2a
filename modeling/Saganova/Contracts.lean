import Mathlib.Data.Rat.Defs
import Mathlib.Data.Rat.Lemmas

/-!
# Event contracts

The messages the services exchange (`libs/event-contracts`): the `type`
discriminators of events and commands, the payload classes, and the two
envelopes.

A payload crosses Kafka as a JSON object.  `Payload` is such an object: every
field that some payload class declares, absent or present.  JSON numbers are
exact rationals (`Num`), ids and timestamps are strings.
-/

namespace Saganova

abbrev Num := ℚ
abbrev Uuid := String
abbrev Time := String

/-! ## Topics and types -/

inductive Topic where
  | orderEvents
  | inventoryEvents
  | paymentEvents
  | sagaCommands
  deriving DecidableEq, Repr

/-- `OrderEventType`, `InventoryEventType` and `PaymentEventType`; `other` is
any other string in an envelope's `type`. -/
inductive EventType where
  | orderCreated
  | orderConfirmed
  | orderCancelled
  | inventoryReserved
  | inventoryReservationFailed
  | inventoryReleased
  | paymentAuthorized
  | paymentDeclined
  | paymentRefunded
  | other (type : String)
  deriving DecidableEq, Repr

/-- The `*_COMMAND` constants. -/
inductive CommandType where
  | createOrder
  | confirmOrder
  | cancelOrder
  | reserveStock
  | releaseInventory
  | authorizePayment
  | refundPayment
  | other (type : String)
  deriving DecidableEq, Repr

/-! ## Payloads -/

structure OrderLineItem where
  sku : String
  qty : Num
  unitPriceCents : Num
  deriving DecidableEq, Repr

/-- `ReservationLine`, `ReserveStockLine` and `OrderFulfillmentLine`. -/
structure ReservationLine where
  sku : String
  qty : Num
  deriving DecidableEq, Repr

/-- A JSON object with the fields that the payload classes declare. -/
structure Payload where
  orderId : Option Uuid := none
  customerId : Option Uuid := none
  items : Option (List OrderLineItem) := none
  totalCents : Option Num := none
  lines : Option (List ReservationLine) := none
  amountCents : Option Num := none
  reservationId : Option Uuid := none
  paymentId : Option Uuid := none
  pspReference : Option String := none
  declineCode : Option String := none
  sku : Option String := none
  reason : Option String := none
  deriving DecidableEq, Repr

/-- `{ ...a, ...b }` -/
def Payload.spread (a b : Payload) : Payload where
  orderId := b.orderId <|> a.orderId
  customerId := b.customerId <|> a.customerId
  items := b.items <|> a.items
  totalCents := b.totalCents <|> a.totalCents
  lines := b.lines <|> a.lines
  amountCents := b.amountCents <|> a.amountCents
  reservationId := b.reservationId <|> a.reservationId
  paymentId := b.paymentId <|> a.paymentId
  pspReference := b.pspReference <|> a.pspReference
  declineCode := b.declineCode <|> a.declineCode
  sku := b.sku <|> a.sku
  reason := b.reason <|> a.reason

/-- A field present in `b` wins. -/
theorem Payload.spread_orderId_of_some {a b : Payload} {id : Uuid} (h : b.orderId = some id) :
    (a.spread b).orderId = some id := by
  simp [spread, h]

/-! ## Envelopes -/

/-- What consumers read of an event message; the relay writes no `version`,
`sequence` or `occurredAt`. -/
structure EventEnvelope where
  id : Uuid
  type : EventType
  correlationId : String
  aggregateId : String
  payload : Payload
  deriving DecidableEq, Repr

structure CommandEnvelope where
  id : Uuid
  type : CommandType
  version : ℕ
  correlationId : String
  issuedAt : Time
  payload : Payload
  deriving DecidableEq, Repr

def eventEnvelopeVersion : ℕ := 1

/-- The value of a Kafka message. -/
inductive Message where
  | event (envelope : EventEnvelope)
  | command (envelope : CommandEnvelope)
  deriving DecidableEq, Repr

/-- A message in its place on a topic, as a consumer receives it. -/
structure Record (α : Type) where
  topic : Topic
  partition : ℕ
  offset : ℕ
  value : α
  deriving DecidableEq, Repr

end Saganova
