import Saganova.Domain.Errors
import Saganova.EventSourcing

/-!
# The reservation aggregate

`apps/inventory-service/src/domain/stock.aggregate.ts`.  Its identity is the
order; it records the outcome of one reservation attempt.
-/

namespace Saganova

structure InventoryReservedPayload where
  reservationId : Uuid
  orderId : Uuid
  lines : List ReservationLine
  deriving DecidableEq, Repr

structure InventoryReservationFailedPayload where
  orderId : Uuid
  sku : String
  reason : String
  deriving DecidableEq, Repr

structure InventoryReleasedPayload where
  reservationId : Option Uuid
  orderId : Uuid
  deriving DecidableEq, Repr

inductive InventoryEvent where
  | inventoryReserved (p : InventoryReservedPayload)
  | inventoryReservationFailed (p : InventoryReservationFailedPayload)
  | inventoryReleased (p : InventoryReleasedPayload)
  deriving DecidableEq, Repr

def InventoryEvent.type : InventoryEvent → EventType
  | .inventoryReserved _ => .inventoryReserved
  | .inventoryReservationFailed _ => .inventoryReservationFailed
  | .inventoryReleased _ => .inventoryReleased

/-- The JSON object of the payload. -/
def InventoryEvent.payload : InventoryEvent → Payload
  | .inventoryReserved p =>
    { reservationId := some p.reservationId, orderId := some p.orderId, lines := some p.lines }
  | .inventoryReservationFailed p =>
    { orderId := some p.orderId, sku := some p.sku, reason := some p.reason }
  | .inventoryReleased p => { reservationId := p.reservationId, orderId := some p.orderId }

structure StockAggregateState where
  status : ReservationStatus
  orderId : Uuid
  reservationId : Option Uuid := none
  lines : List ReservationLine
  failedSku : Option String := none
  failReason : Option String := none
  deriving DecidableEq, Repr

abbrev StockAggregate := AggregateRoot StockAggregateState InventoryEvent

namespace StockAggregate

def blankState : StockAggregateState := { status := .uninitialized, orderId := "", lines := [] }

def when (state : StockAggregateState) : InventoryEvent → StockAggregateState
  | .inventoryReserved p =>
    { status := .reserved, orderId := p.orderId, reservationId := some p.reservationId,
      lines := p.lines }
  | .inventoryReservationFailed p =>
    { state with status := .failed, orderId := p.orderId, failedSku := some p.sku,
                 failReason := some p.reason }
  | .inventoryReleased _ => { state with status := .released }

def blank (orderId : Uuid) : StockAggregate := { id := orderId, state := blankState }

def reserved (orderId reservationId : Uuid) (lines : List ReservationLine) (now : Time) :
    StockAggregate :=
  (blank orderId).apply when (.inventoryReserved { reservationId, orderId, lines }) now

def failed (orderId : Uuid) (sku reason : String) (now : Time) : StockAggregate :=
  (blank orderId).apply when (.inventoryReservationFailed { orderId, sku, reason }) now

def release (a : StockAggregate) (now : Time) : Except Err StockAggregate :=
  if a.state.status ≠ .reserved then
    throw (.reservationAlreadyFinalized a.id a.state.status)
  else
    pure (a.apply when
      (.inventoryReleased { reservationId := a.state.reservationId, orderId := a.id }) now)

end StockAggregate

end Saganova
