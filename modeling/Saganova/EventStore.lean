import Saganova.Schema

/-!
# Event stores, outboxes and projections

The three hand-copied event-store repositories and the projection upserts they
call.  Their insert loops are one definition, `appendEvents`, with the
service's names as parameters; they differ in the projection they upsert and
in where a unique violation becomes a `ConcurrencyError`: outside the
transaction for orders and payments, inside it for reservations.

TypeORM's `upsert` leaves a column alone whose value in the entity is
undefined, so the update branches keep the old value there (`<|>`).
-/

namespace Saganova

open Concurrency

/-! ## Projections -/

namespace OrderProjectionRepository

def upsertWithinTransaction (aggregate : OrderAggregate) : DbTx Unit := do
  let snapshot := aggregate.state
  let totalCents ← integer snapshot.totalCents
  let entity : OrderProjectionRow :=
    { customerId := snapshot.customerId, status := snapshot.status, items := snapshot.items
      totalCents, paymentId := snapshot.paymentId, cancelReason := snapshot.cancelReason
      version := aggregate.version }
  upsert (.projection .order aggregate.id) (insert (.projection .order aggregate.id) entity)
    fun (old : OrderProjectionRow) =>
      { entity with
        paymentId := entity.paymentId <|> old.paymentId
        cancelReason := entity.cancelReason <|> old.cancelReason }

end OrderProjectionRepository

namespace PaymentProjectionRepository

/-- `findOne({ where: { orderId } })`, through the unique index.  The row's
`paymentId` comes with it. -/
def findByOrderId (orderId : Uuid) : Handler (Option (Uuid × PaymentProjectionRow)) :=
  .select fun db => do
    let paymentId ← db.row (.paymentOfOrder orderId)
    let row ← db.row (.projection .payment paymentId)
    pure (paymentId, row)

def upsertWithinTransaction (aggregate : PaymentAggregate) : DbTx Unit := do
  let snapshot := aggregate.state
  let amountCents ← integer snapshot.amountCents
  let entity : PaymentProjectionRow :=
    { orderId := snapshot.orderId, status := snapshot.status, amountCents
      pspReference := snapshot.pspReference, declineCode := snapshot.declineCode
      reason := snapshot.reason, version := aggregate.version }
  upsert (.projection .payment aggregate.id)
    -- a new row also enters the unique index on orderId
    (do insert (.paymentOfOrder snapshot.orderId) aggregate.id
        insert (.projection .payment aggregate.id) entity)
    fun (old : PaymentProjectionRow) =>
      -- no event of a payment changes its orderId, so the index entry stays
      { entity with
        pspReference := entity.pspReference <|> old.pspReference
        declineCode := entity.declineCode <|> old.declineCode
        reason := entity.reason <|> old.reason }

end PaymentProjectionRepository

namespace ReservationProjectionRepository

def findByOrderId (orderId : Uuid) : Handler (Option ReservationProjectionRow) :=
  .select fun db => db.row (.projection .inventory orderId)

def upsertWithinTransaction (aggregate : StockAggregate) : DbTx Unit := do
  let snapshot := aggregate.state
  let entity : ReservationProjectionRow :=
    { status := snapshot.status, reservationId := snapshot.reservationId, lines := snapshot.lines
      failedSku := snapshot.failedSku, failReason := snapshot.failReason
      version := aggregate.version }
  upsert (.projection .inventory aggregate.id)
    (insert (.projection .inventory aggregate.id) entity)
    fun (old : ReservationProjectionRow) =>
      { entity with
        reservationId := entity.reservationId <|> old.reservationId
        failedSku := entity.failedSku <|> old.failedSku
        failReason := entity.failReason <|> old.failReason }

end ReservationProjectionRepository

def Service.upsertWithinTransaction : (svc : Service) → svc.Aggregate → DbTx Unit
  | .order => OrderProjectionRepository.upsertWithinTransaction
  | .payment => PaymentProjectionRepository.upsertWithinTransaction
  | .inventory => ReservationProjectionRepository.upsertWithinTransaction

/-! ## Streams -/

section

variable (svc : Service)

/-- The largest sequence in the event stores. -/
def maxSequence (db : Db) : ℕ :=
  db.foldr (fun entry n => match entry.1 with
    | .eventStore _ _ sequence => max sequence n
    | _ => n) 0

/-- `find({ where: { aggregateId }, order: { sequence: 'ASC' } })` -/
def loadStream (db : Db) (aggregateId : String) : List (StoredEvent svc.Event) :=
  (List.range (maxSequence db + 1)).filterMap fun sequence =>
    (Store.row db (.eventStore svc aggregateId sequence)).map fun r =>
      { aggregateId, aggregateType := r.aggregateType, sequence, event := r.event
        occurredAt := r.occurredAt, correlationId := r.correlationId }

/-- Replay a history into a blank aggregate, if there is any. -/
def hydrateFrom (id : String) (history : List (StoredEvent svc.Event)) : Option svc.Aggregate :=
  if history.isEmpty then none else some (AggregateRoot.hydrate svc.when (svc.blank id) history)

def loadAggregate (id : String) : Handler (Option svc.Aggregate) :=
  .select fun db => hydrateFrom svc id (loadStream svc db id)

/-! ## Save -/

/-- The insert loop of the three `save` functions: `sequence` is the last one
taken, and each round inserts an event and its outbox row. -/
def appendEvents (aggregateId correlationId : String) (ids : ℕ → Uuid) :
    ℕ → List (UncommittedEvent svc.Event) → DbTx Unit
  | _, [] => pure ()
  | sequence, evt :: uncommitted => do
    insert (.eventStore svc aggregateId (sequence + 1))
      { aggregateType := svc.aggregateType, event := evt.event, occurredAt := evt.occurredAt
        correlationId }
    insert (.outbox svc (ids (sequence + 1)))
      { aggregateId, topic := svc.topic, eventType := svc.eventType evt.event
        payload := svc.payload evt.event, correlationId, publishedAt := none
        publishAttempts := 0 }
    appendEvents aggregateId correlationId ids (sequence + 1) uncommitted

def expectedVersion (aggregate : svc.Aggregate) : ℕ :=
  aggregate.version - aggregate.uncommittedEvents.length

/-- Events, outbox rows and projection, in the caller's transaction. -/
def persist (aggregate : svc.Aggregate) (correlationId : String) (ids : ℕ → Uuid) : DbTx Unit := do
  appendEvents svc aggregate.id correlationId ids (expectedVersion svc aggregate)
    aggregate.uncommittedEvents
  svc.upsertWithinTransaction aggregate

/-- A unique violation becomes a `ConcurrencyError`. -/
def toConcurrencyError (aggregate : svc.Aggregate) (err : Err) : Err :=
  if err = .uniqueViolation then
    .concurrencyError aggregate.id (expectedVersion svc aggregate)
  else
    err

/-- `save` of the order and payment repositories.  It returns the aggregate
with its events marked as committed. -/
def save (aggregate : svc.Aggregate) (correlationId : String) : Handler svc.Aggregate :=
  if aggregate.uncommittedEvents.isEmpty then pure aggregate
  else do
    let ids ← randomUUIDs
    tryCatch (Proc.transaction (persist svc aggregate correlationId ids)) fun err =>
      throw (toConcurrencyError svc aggregate err)
    pure aggregate.markEventsAsCommitted

end

namespace OrderEventStoreRepository

def save (aggregate : OrderAggregate) (correlationId : String) : Handler OrderAggregate :=
  Saganova.save .order aggregate correlationId

def loadAggregate (orderId : Uuid) : Handler (Option OrderAggregate) :=
  Saganova.loadAggregate .order orderId

end OrderEventStoreRepository

namespace PaymentEventStoreRepository

def save (aggregate : PaymentAggregate) (correlationId : String) : Handler PaymentAggregate :=
  Saganova.save .payment aggregate correlationId

def loadAggregate (paymentId : Uuid) : Handler (Option PaymentAggregate) :=
  Saganova.loadAggregate .payment paymentId

end PaymentEventStoreRepository

namespace InventoryEventStoreRepository

/-- In the caller's transaction; `ids` are the outbox ids the loop draws. -/
def saveWithinTransaction (aggregate : StockAggregate) (correlationId : String)
    (ids : ℕ → Uuid) : DbTx Unit :=
  if aggregate.uncommittedEvents.isEmpty then pure ()
  else (persist .inventory aggregate correlationId ids).mapError
    (toConcurrencyError .inventory aggregate)

def save (aggregate : StockAggregate) (correlationId : String) : Handler StockAggregate := do
  let ids ← randomUUIDs
  Proc.transaction (saveWithinTransaction aggregate correlationId ids)
  pure aggregate.markEventsAsCommitted

def loadAggregate (orderId : Uuid) : Handler (Option StockAggregate) :=
  Saganova.loadAggregate .inventory orderId

end InventoryEventStoreRepository

end Saganova
