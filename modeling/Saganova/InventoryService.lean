import Saganova.EventStore
import Saganova.NumberText

/-!
# The inventory service

The counter table and its row-locked arithmetic (`StockRepository`), the two
command handlers of `apps/inventory-service`, and its consumer of
`saga.commands`.
-/

namespace Saganova

open Concurrency

namespace StockRepository

/-- `UPDATE stock_level SET "qtyReserved" = f("qtyReserved") WHERE sku = ...`;
it matches no row for an unknown SKU. -/
def updateReserved (sku : String) (f : ℤ → Num) : DbTx Unit :=
  .lock (.stockLevel sku) fun
    | none => pure ()
    | some (row : StockLevelRow) =>
      let qtyReserved := roundNumeric (f row.qtyReserved)
      if Int4 qtyReserved then
        .put (.stockLevel sku) { row with qtyReserved } (pure ())
      else
        throw (.queryFailed "integer out of range")

def increment (sku : String) (qty : Num) : DbTx Unit := updateReserved sku fun n => n + qty

def decrement (sku : String) (qty : Num) : DbTx Unit := updateReserved sku fun n => n - qty

/-- The check of one line, under the lock of its row. -/
def checkLine (line : ReservationLine) : DbTx Unit :=
  .lock (.stockLevel line.sku) fun
    | none => throw (.insufficientStock line.sku s!"Unknown SKU \"{line.sku}\"")
    | some (row : StockLevelRow) =>
      let availableToSell := row.qtyAvailable - row.qtyReserved
      if (availableToSell : Num) < line.qty then
        throw (.insufficientStock line.sku
          s!"Requested {numberText line.qty} of \"{line.sku}\", only {availableToSell} available")
      else
        pure ()

def checkLines : List ReservationLine → DbTx Unit
  | [] => pure ()
  | line :: lines => do
    checkLine line
    checkLines lines

def incrementLines : List ReservationLine → DbTx Unit
  | [] => pure ()
  | line :: lines => do
    increment line.sku line.qty
    incrementLines lines

def reserveLinesWithinTransaction (lines : List ReservationLine) : DbTx Unit := do
  checkLines lines
  incrementLines lines

def releaseLinesWithinTransaction : List ReservationLine → DbTx Unit
  | [] => pure ()
  | line :: lines => do
    decrement line.sku line.qty
    releaseLinesWithinTransaction lines

end StockRepository

structure ReserveStockCommand where
  orderId : Uuid
  lines : List ReservationLine
  correlationId : String

structure ReleaseInventoryCommand where
  orderId : Uuid
  reservationId : Uuid
  correlationId : String

/-- The transaction of a reservation: stock rows first, then the event. -/
def ReserveStockHandler.transaction (command : ReserveStockCommand) (reservationId : Uuid)
    (time : Time) (ids : ℕ → Uuid) : DbTx Unit := do
  StockRepository.reserveLinesWithinTransaction command.lines
  InventoryEventStoreRepository.saveWithinTransaction
    (StockAggregate.reserved command.orderId reservationId command.lines time)
    command.correlationId ids

def ReserveStockHandler.execute (command : ReserveStockCommand) : Handler Unit := do
  match ← ReservationProjectionRepository.findByOrderId command.orderId with
  | some _ => pure ()
  | none =>
    let reservationId ← randomUUID
    let time ← now
    let ids ← randomUUIDs
    tryCatch (Proc.transaction (ReserveStockHandler.transaction command reservationId time ids))
      fun
      | .insufficientStock sku reason => do
        -- the reservation rolled back; its failure is recorded on its own
        let time ← now
        let failureAggregate := StockAggregate.failed command.orderId sku reason time
        let _ ← InventoryEventStoreRepository.save failureAggregate command.correlationId
      | err => throw err

/-- The transaction of a release.  Stock is given back before the aggregate's
status is checked; `release` failing rolls it back. -/
def ReleaseInventoryHandler.transaction (aggregate : StockAggregate) (correlationId : String)
    (time : Time) (ids : ℕ → Uuid) : DbTx Unit := do
  StockRepository.releaseLinesWithinTransaction aggregate.state.lines
  match StockAggregate.release aggregate time with
  | .error err => throw err
  | .ok aggregate =>
    InventoryEventStoreRepository.saveWithinTransaction aggregate correlationId ids

def ReleaseInventoryHandler.execute (command : ReleaseInventoryCommand) : Handler Unit := do
  match ← InventoryEventStoreRepository.loadAggregate command.orderId with
  | none =>
    throw (.notFound
      s!"Cannot release inventory for order {command.orderId}: no such reservation.")
  | some aggregate =>
    let time ← now
    let ids ← randomUUIDs
    tryCatch
      (Proc.transaction
        (ReleaseInventoryHandler.transaction aggregate command.correlationId time ids))
      fun
      | .reservationAlreadyFinalized _ _ => pure ()
      | err => throw err

def InventoryKafkaConsumer.dispatch (envelope : CommandEnvelope) : Handler Unit := do
  let p := envelope.payload
  match envelope.type with
  | .reserveStock =>
    ReserveStockHandler.execute
      { orderId := ← field p.orderId, lines := ← field p.lines
        correlationId := envelope.correlationId }
  | .releaseInventory =>
    ReleaseInventoryHandler.execute
      { orderId := ← field p.orderId, reservationId := ← field p.reservationId
        correlationId := envelope.correlationId }
  -- commands that other services own
  | _ => pure ()

end Saganova
