import Mathlib.Data.Rat.Floor
import Saganova.Concurrency.Handler
import Saganova.Domain.Order
import Saganova.Domain.Payment
import Saganova.Domain.Stock
import Saganova.SagaToolkit
import Saganova.Uuids

/-!
# The database and the outside

One `Store` holds the rows of every table of every service, keyed by primary
key (`Key`), the entries of the unique index on `payment_projection.orderId`
among them.  `Act` is what handlers do outside the database.

Only columns that some modelled function reads or writes are here: the
`updatedAt` and `createdAt` stamps and the surrogate `id` of `event_store` are
left out.
-/

namespace Saganova

open Concurrency

/-! ## The three event-sourced services -/

inductive Service where
  | order
  | payment
  | inventory
  deriving DecidableEq, Repr

namespace Service

abbrev Event : Service → Type
  | .order => OrderEvent
  | .payment => PaymentEvent
  | .inventory => InventoryEvent

abbrev AggregateState : Service → Type
  | .order => OrderState
  | .payment => PaymentState
  | .inventory => StockAggregateState

abbrev Aggregate (svc : Service) := AggregateRoot svc.AggregateState svc.Event

/-- The aggregate's `when()` reducer. -/
def when : (svc : Service) → svc.AggregateState → svc.Event → svc.AggregateState
  | .order => OrderAggregate.when
  | .payment => PaymentAggregate.when
  | .inventory => StockAggregate.when

def blankState : (svc : Service) → svc.AggregateState
  | .order => OrderAggregate.blankState
  | .payment => PaymentAggregate.blankState
  | .inventory => StockAggregate.blankState

def blank (svc : Service) (id : String) : svc.Aggregate := { id, state := svc.blankState }

def eventType : (svc : Service) → svc.Event → EventType
  | .order => OrderEvent.type
  | .payment => PaymentEvent.type
  | .inventory => InventoryEvent.type

def payload : (svc : Service) → svc.Event → Payload
  | .order => OrderEvent.payload
  | .payment => PaymentEvent.payload
  | .inventory => InventoryEvent.payload

def aggregateType : Service → String
  | .order => "Order"
  | .payment => "Payment"
  | .inventory => "Reservation"

def topic : Service → Topic
  | .order => .orderEvents
  | .payment => .paymentEvents
  | .inventory => .inventoryEvents

end Service

/-! ## Rows -/

structure EventStoreRow (svc : Service) where
  aggregateType : String
  event : svc.Event
  occurredAt : Time
  correlationId : String

structure OutboxRow where
  aggregateId : String
  topic : Topic
  eventType : EventType
  payload : Payload
  correlationId : String
  publishedAt : Option Time
  publishAttempts : ℕ
  deriving DecidableEq, Repr

structure OrderProjectionRow where
  customerId : Uuid
  status : OrderStatus
  items : List OrderLineItem
  totalCents : ℤ
  paymentId : Option Uuid
  cancelReason : Option String
  version : ℕ
  deriving DecidableEq, Repr

structure PaymentProjectionRow where
  orderId : Uuid
  status : PaymentStatus
  amountCents : ℤ
  pspReference : Option String
  declineCode : Option String
  reason : Option String
  version : ℕ
  deriving DecidableEq, Repr

structure ReservationProjectionRow where
  status : ReservationStatus
  reservationId : Option Uuid
  lines : List ReservationLine
  failedSku : Option String
  failReason : Option String
  version : ℕ
  deriving DecidableEq, Repr

structure StockLevelRow where
  description : String
  qtyAvailable : ℤ
  qtyReserved : ℤ
  deriving DecidableEq, Repr

structure SagaInstanceRow where
  definitionName : String
  currentStepIndex : ℕ
  status : SagaStatus
  context : Payload
  history : List HistoryEntry
  correlationId : String
  deriving DecidableEq, Repr

abbrev ProjectionRow : Service → Type
  | .order => OrderProjectionRow
  | .payment => PaymentProjectionRow
  | .inventory => ReservationProjectionRow

inductive Key where
  | stockLevel (sku : String)
  | eventStore (svc : Service) (aggregateId : String) (sequence : ℕ)
  | outbox (svc : Service) (id : Uuid)
  /-- `order_projection`, `payment_projection`, `reservation_projection` -/
  | projection (svc : Service) (id : String)
  /-- the unique index on `payment_projection.orderId` -/
  | paymentOfOrder (orderId : Uuid)
  | sagaInstance (sagaId : String)
  deriving DecidableEq, Repr

abbrev Row : Key → Type
  | .stockLevel _ => StockLevelRow
  | .eventStore svc _ _ => EventStoreRow svc
  | .outbox _ _ => OutboxRow
  | .projection svc _ => ProjectionRow svc
  | .paymentOfOrder _ => Uuid
  | .sagaInstance _ => SagaInstanceRow

abbrev Db := Store Row

/-! ## The outside -/

structure AuthorizeParams where
  orderId : Uuid
  customerId : Uuid
  amountCents : Num
  idempotencyKey : String
  deriving DecidableEq, Repr

structure AuthorizeResult where
  success : Bool
  pspReference : Option String := none
  declineCode : Option String := none
  reason : Option String := none
  deriving DecidableEq, Repr

structure RefundResult where
  refundId : String
  deriving DecidableEq, Repr

/-- What comes of a call of the gateway's `authorize`: whether the request
reached the provider, and what the caller got back.  The code sees `answer`
only. -/
structure AuthorizeReply where
  reached : Bool
  answer : Except Err AuthorizeResult

/-- What handlers do outside the database. -/
inductive Act where
  | randomUUID
  /-- the ids that a loop draws with `randomUUID()`, one for each round -/
  | randomUUIDs
  /-- `new Date()` -/
  | now
  /-- `KafkaProducerService.publish` -/
  | publish (topic : Topic) (message : Message) (key : String)
  | authorize (params : AuthorizeParams)
  | refund (pspReference : String) (amountCents : Num) (reason : Option String)
  /-- `consumer.commitOffsets` -/
  | commitOffsets (topic : Topic) (partition offset : ℕ)
  deriving DecidableEq, Repr

abbrev Act.Reply : Act → Type
  | .randomUUID => Uuid
  | .randomUUIDs => ℕ → Uuid
  | .now => Time
  | .publish _ _ _ => Except Err Unit
  | .authorize _ => AuthorizeReply
  | .refund _ _ _ => Except Err RefundResult
  | .commitOffsets _ _ _ => Except Err Unit

abbrev DbTx := Tx Row Err
abbrev Handler := Proc Row Err Act.Reply

def randomUUID : Handler Uuid := Proc.perform Act.Reply .randomUUID
def randomUUIDs : Handler (ℕ → Uuid) := Proc.perform Act.Reply .randomUUIDs
def now : Handler Time := Proc.perform Act.Reply .now

def publish (topic : Topic) (message : Message) (key : String) : Handler Unit := do
  Proc.ofExcept (← Proc.perform Act.Reply (.publish topic message key))

def commitOffsets (topic : Topic) (partition offset : ℕ) : Handler Unit := do
  Proc.ofExcept (← Proc.perform Act.Reply (.commitOffsets topic partition offset))

@[simp] theorem randomUUID_bind {α : Type} (f : Uuid → Handler α) :
    randomUUID >>= f = .act .randomUUID f := rfl

@[simp] theorem randomUUIDs_bind {α : Type} (f : (ℕ → Uuid) → Handler α) :
    randomUUIDs >>= f = .act .randomUUIDs f := rfl

@[simp] theorem now_bind {α : Type} (f : Time → Handler α) : now >>= f = .act .now f := rfl

namespace PaymentGateway

def authorize (params : AuthorizeParams) : Handler AuthorizeResult := do
  Proc.ofExcept (← Proc.perform Act.Reply (.authorize params)).answer

def refund (pspReference : String) (amountCents : Num) (reason : Option String) :
    Handler RefundResult := do
  Proc.ofExcept (← Proc.perform Act.Reply (.refund pspReference amountCents reason))

@[simp] theorem authorize_bind {α : Type} (params : AuthorizeParams)
    (f : AuthorizeResult → Handler α) : authorize params >>= f =
      .act (.authorize params) fun reply => Proc.ofExcept reply.answer >>= f := rfl

@[simp] theorem refund_bind {α : Type} (pspReference : String) (amountCents : Num)
    (reason : Option String) (f : RefundResult → Handler α) :
    refund pspReference amountCents reason >>= f =
      .act (.refund pspReference amountCents reason) fun reply => Proc.ofExcept reply >>= f := rfl

end PaymentGateway

/-- Read a field that the payload's class declares.  A message without it is not
of its declared type, and its handler stops here. -/
def field {α : Type} : Option α → Handler α
  | some a => pure a
  | none => throw (.typeError "Cannot read properties of undefined")

/-- A consumer's `eachMessage`: commit the offset after the message once it has
been dispatched; an error leaves it uncommitted, to be redelivered. -/
def eachMessage {α : Type} (dispatch : α → Handler Unit) (record : Record α) : Handler Unit := do
  dispatch record.value
  commitOffsets record.topic record.partition (record.offset + 1)

/-! ## Statements -/

/-- `INSERT`: fails where the key is taken. -/
def insert (k : Key) (row : Row k) : DbTx Unit :=
  .lock k fun
    | some _ => throw .uniqueViolation
    | none => .put k row (pure ())

/-- `INSERT ... ON CONFLICT DO UPDATE`, with the insert and the update given. -/
def upsert (k : Key) (insert : DbTx Unit) (update : Row k → Row k) : DbTx Unit :=
  .lock k fun
    | some old => .put k (update old) (pure ())
    | none => insert

/-- The range of an `INTEGER` column. -/
def Int4 (n : ℤ) : Prop := -2 ^ 31 ≤ n ∧ n < 2 ^ 31

instance (n : ℤ) : Decidable (Int4 n) := inferInstanceAs (Decidable (_ ∧ _))

/-- A number sent as the parameter of an `INTEGER` column. -/
def integer (q : Num) : DbTx ℤ :=
  if q.den = 1 ∧ Int4 q.num then pure q.num
  else throw (.queryFailed "invalid value for type integer")

/-- How a numeric is assigned to an `INTEGER` column: to the nearest, halves
away from zero. -/
def roundNumeric (q : Num) : ℤ :=
  if 0 ≤ q then ⌊q + 1 / 2⌋ else ⌈q - 1 / 2⌉

theorem roundNumeric_intCast (n : ℤ) : roundNumeric n = n := by
  unfold roundNumeric
  split
  · rw [Int.floor_intCast_add]
    norm_num
  · rw [Int.ceil_eq_iff]
    constructor
    · linarith
    · linarith

end Saganova
