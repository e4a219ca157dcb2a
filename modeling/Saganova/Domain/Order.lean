import Saganova.Domain.Errors
import Saganova.EventSourcing

/-!
# The order aggregate

`apps/order-service/src/domain/order.aggregate.ts`.
-/

namespace Saganova

structure OrderCreatedPayload where
  orderId : Uuid
  customerId : Uuid
  items : List OrderLineItem
  totalCents : Num
  deriving DecidableEq, Repr

structure OrderConfirmedPayload where
  orderId : Uuid
  customerId : Option Uuid := none
  paymentId : Uuid
  deriving DecidableEq, Repr

structure OrderCancelledPayload where
  orderId : Uuid
  customerId : Option Uuid := none
  reason : String
  deriving DecidableEq, Repr

inductive OrderEvent where
  | orderCreated (p : OrderCreatedPayload)
  | orderConfirmed (p : OrderConfirmedPayload)
  | orderCancelled (p : OrderCancelledPayload)
  deriving DecidableEq, Repr

def OrderEvent.type : OrderEvent → EventType
  | .orderCreated _ => .orderCreated
  | .orderConfirmed _ => .orderConfirmed
  | .orderCancelled _ => .orderCancelled

/-- The JSON object of the payload. -/
def OrderEvent.payload : OrderEvent → Payload
  | .orderCreated p =>
    { orderId := some p.orderId, customerId := some p.customerId, items := some p.items,
      totalCents := some p.totalCents }
  | .orderConfirmed p =>
    { orderId := some p.orderId, customerId := p.customerId, paymentId := some p.paymentId }
  | .orderCancelled p =>
    { orderId := some p.orderId, customerId := p.customerId, reason := some p.reason }

structure OrderState where
  status : OrderStatus
  customerId : Uuid
  items : List OrderLineItem
  totalCents : Num
  paymentId : Option Uuid := none
  cancelReason : Option String := none
  deriving DecidableEq, Repr

abbrev OrderAggregate := AggregateRoot OrderState OrderEvent

namespace OrderAggregate

def blankState : OrderState :=
  { status := .uninitialized, customerId := "", items := [], totalCents := 0 }

def when (state : OrderState) : OrderEvent → OrderState
  | .orderCreated p =>
    { status := .created, customerId := p.customerId, items := p.items, totalCents := p.totalCents }
  | .orderConfirmed p => { state with status := .confirmed, paymentId := some p.paymentId }
  | .orderCancelled p => { state with status := .cancelled, cancelReason := some p.reason }

def blank (orderId : Uuid) : OrderAggregate := { id := orderId, state := blankState }

def totalCents (items : List OrderLineItem) : Num :=
  items.foldl (fun sum i => sum + i.qty * i.unitPriceCents) 0

def createNew (orderId customerId : Uuid) (items : List OrderLineItem) (now : Time) :
    OrderAggregate :=
  (blank orderId).apply when
    (.orderCreated { orderId, customerId, items, totalCents := totalCents items }) now

def confirm (a : OrderAggregate) (paymentId : Uuid) (now : Time) : Except Err OrderAggregate :=
  if a.state.status ≠ .created then
    throw (.orderAlreadyFinalized a.id a.state.status)
  else
    pure (a.apply when (.orderConfirmed { orderId := a.id, paymentId }) now)

def cancel (a : OrderAggregate) (reason : String) (now : Time) : Except Err OrderAggregate :=
  if a.state.status = .cancelled ∨ a.state.status = .confirmed then
    throw (.orderAlreadyFinalized a.id a.state.status)
  else
    pure (a.apply when (.orderCancelled { orderId := a.id, reason }) now)

end OrderAggregate

end Saganova
