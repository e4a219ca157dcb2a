import Saganova.PaymentCharges

/-!
# What every message of a checkout rests on

The composed system: gateway requests draw fresh ids, consumers are delivered
what was published, any number of times and in any order, and the relays
publish what is in the outboxes.

A checkout leaves its facts in four stores and in the messages in flight.  A
fact that only grows is said of the first event of a stream (`First`).
`Commanded` and `Announced` say which facts a command and an event rest on, and
`Recorded` which streams there are.  All of them stay true (`.grow`), so a
message may be late or repeated, and a saga row stale.
-/

namespace Saganova

open Concurrency

/-! ## What was published -/

/-- A publish that was attempted, and what was to be published. -/
def publication : Event Row Act.Reply Task → Option (Topic × Message)
  | .acted _ (.publish topic message _) _ => some (topic, message)
  | _ => none

/-- The messages on the topics, newest first. -/
def publications (s : Shared) : List (Topic × Message) := s.trace.filterMap publication

theorem published_iff {s : Shared} {topic : Topic} {message : Message} :
    Published s topic message ↔ (topic, message) ∈ publications s := by
  unfold publications
  rw [List.mem_filterMap]
  constructor
  · rintro ⟨task, key, r, hmem⟩
    exact ⟨_, hmem, rfl⟩
  · rintro ⟨event, hmem, hsome⟩
    unfold publication at hsome
    split at hsome
    · rename_i task _ _ key r
      obtain ⟨rfl, rfl⟩ := Prod.mk.inj (Option.some.inj hsome)
      exact ⟨task, key, r, hmem⟩
    · nomatch hsome

instance (s : Shared) (topic : Topic) (message : Message) : Decidable (Published s topic message) :=
  decidable_of_iff _ published_iff.symm

/-- Nothing was done before the start. -/
theorem not_acted {s : Shared} (h : s.trace = []) (t : Task) (a : Act) (r : Act.Reply a) :
    Event.acted t a r ∉ s.trace := by
  rw [h]
  exact List.not_mem_nil

theorem not_published {s : Shared} (h : s.trace = []) (topic : Topic) (message : Message) :
    ¬ Published s topic message := by
  rintro ⟨task, key, r, hmem⟩
  exact not_acted h task _ r hmem

/-! ## The composed system -/

/-- A request to the api-gateway. -/
def Task.IsRequest : Task → Prop
  | .createOrder _ _ _ => True
  | _ => False

/-- A request draws ids that no request has drawn. -/
def FreshDraw (s : Shared) (t : Task) : (a : Act) → Act.Reply a → Prop
  | .randomUUID, (id : Uuid) => t.IsRequest → ∀ t' (id' : Uuid), t'.IsRequest →
    Event.acted t' .randomUUID id' ∈ s.trace → id ≠ id'
  | _, _ => True

/-- A consumer is delivered what was published. -/
def Delivered (s : Shared) : Task → Prop
  | .command _ r => Published s r.topic (.command r.value)
  | .event r => Published s r.topic (.event r.value)
  | .createOrder _ _ _ | .relay _ _ => True

instance (s : Shared) (t : Task) : Decidable (Delivered s t) :=
  match t with
  | .command _ r => inferInstanceAs (Decidable (Published s r.topic (.command r.value)))
  | .event r => inferInstanceAs (Decidable (Published s r.topic (.event r.value)))
  | .createOrder _ _ _ | .relay _ _ => .isTrue trivial

/-- Only the stock table has rows. -/
def OnlyStocked (db : Db) : Prop := ∀ k : Key, (∀ sku, k ≠ .stockLevel sku) → Store.row db k = none

def checkoutSystem : System where
  code := code
  start := fun s => OnlyStocked s.db ∧ s.trace = []
  spawn := fun s t => Delivered s.shared t
  reply := fun s t a r => FreshDraw s t a r
  fault := databaseFault

theorem OnlyStocked.fresh {db : Db} (h : OnlyStocked db) : Fresh db := by
  intro k hk
  refine h k fun sku heq => hk ?_
  rw [heq]
  trivial

theorem checkoutSystem_keeps {G : Guard} : checkoutSystem.Keeps serviceProtocol G :=
  keepsServiceProtocol rfl fun _ hs => hs.1.fresh.consistent

theorem Published.grow {s s' : Shared} {topic : Topic} {message : Message}
    (h : Published s topic message) (hgrow : Grows s s') : Published s' topic message := by
  obtain ⟨task, key, r, hmem⟩ := h
  exact ⟨task, key, r, hgrow.trace.subset hmem⟩

theorem Delivered.grow {s s' : Shared} {t : Task} (h : Delivered s t) (hgrow : Grows s s') :
    Delivered s' t := by
  cases t with
  | command _ _ => exact Published.grow h hgrow
  | event _ => exact Published.grow h hgrow
  | createOrder _ _ _ => trivial
  | relay _ _ => trivial

/-! ## Facts -/

/-- The stream of the aggregate begins with the event. -/
def First (svc : Service) (s : Shared) (id : String) (event : svc.Event) : Prop :=
  ∃ r more, HasStream svc s.db id (r :: more) ∧ r.event = event

/-- The gateway published a CreateOrder command for the order. -/
def Placed (s : Shared) (o customerId : Uuid) (items : List OrderLineItem) : Prop :=
  (∃ correlationId, Event.acted (.createOrder customerId items correlationId) .randomUUID o ∈
    s.trace) ∧
  ∃ c, Published s .sagaCommands (.command c) ∧ c.type = .createOrder ∧
    c.payload = { orderId := some o, customerId := some customerId, items := some items }

/-- A command of the type was published for the order. -/
def Asked (s : Shared) (type : CommandType) (o : Uuid) : Prop :=
  ∃ topic c, Published s topic (.command c) ∧ c.type = type ∧ c.payload.orderId = some o

def Reserved (s : Shared) (o : Uuid) (lines : List ReservationLine) : Prop :=
  ∃ reservationId, First .inventory s o (.inventoryReserved { reservationId, orderId := o, lines })

def ReservationFailed (s : Shared) (o : Uuid) : Prop :=
  ∃ sku reason, First .inventory s o (.inventoryReservationFailed { orderId := o, sku, reason })

def Authorized (s : Shared) (o p : Uuid) (amountCents : Num) : Prop :=
  ∃ pspReference, First .payment s p
    (.paymentAuthorized { paymentId := p, orderId := o, amountCents, pspReference })

def Declined (s : Shared) (o : Uuid) : Prop :=
  ∃ p declineCode reason, First .payment s p
    (.paymentDeclined { paymentId := p, orderId := o, declineCode, reason })

/-- What is to be reserved for the items of an order. -/
def reservationLines (items : List OrderLineItem) : List ReservationLine :=
  items.map fun i => { sku := i.sku, qty := i.qty }

section Grow

variable {s s' : Shared}

theorem First.grow {svc : Service} {id : String} {event : svc.Event} (h : First svc s id event)
    (hgrow : Grows s s') : First svc s' id event := by
  obtain ⟨r, more, hrows, hevent⟩ := h
  obtain ⟨more', hmore⟩ := hgrow.stream hrows
  exact ⟨r, more ++ more', hmore, hevent⟩

theorem First.unique {svc : Service} {id : String} {event event' : svc.Event}
    (h : First svc s id event) (h' : First svc s id event') : event = event' := by
  obtain ⟨r, more, hrows, hevent⟩ := h
  obtain ⟨r', more', hrows', hevent'⟩ := h'
  obtain ⟨rfl, rfl⟩ := List.cons.inj (hrows.unique hrows')
  exact hevent.symm.trans hevent'

theorem Placed.grow {o customerId : Uuid} {items : List OrderLineItem}
    (h : Placed s o customerId items) (hgrow : Grows s s') : Placed s' o customerId items := by
  obtain ⟨⟨correlationId, hdrawn⟩, c, hpublished, hrest⟩ := h
  exact ⟨⟨correlationId, hgrow.trace.subset hdrawn⟩, c, hpublished.grow hgrow, hrest⟩

theorem Asked.grow {type : CommandType} {o : Uuid} (h : Asked s type o) (hgrow : Grows s s') :
    Asked s' type o := by
  obtain ⟨topic, c, hpublished, hrest⟩ := h
  exact ⟨topic, c, hpublished.grow hgrow, hrest⟩

theorem Reserved.grow {o : Uuid} {lines : List ReservationLine} (h : Reserved s o lines)
    (hgrow : Grows s s') : Reserved s' o lines :=
  h.imp fun _ h => h.grow hgrow

theorem ReservationFailed.grow {o : Uuid} (h : ReservationFailed s o) (hgrow : Grows s s') :
    ReservationFailed s' o :=
  h.imp fun _ h => h.imp fun _ h => h.grow hgrow

theorem Authorized.grow {o p : Uuid} {amountCents : Num} (h : Authorized s o p amountCents)
    (hgrow : Grows s s') : Authorized s' o p amountCents :=
  h.imp fun _ h => h.grow hgrow

theorem Declined.grow {o : Uuid} (h : Declined s o) (hgrow : Grows s s') : Declined s' o :=
  h.imp fun _ h => h.imp fun _ h => h.imp fun _ h => h.grow hgrow

end Grow

/-! ## Messages -/

/-- What a published command rests on. -/
inductive Commanded (s : Shared) : CommandType → Payload → Prop
  | createOrder {o customerId : Uuid} {items : List OrderLineItem} : Placed s o customerId items →
      Commanded s .createOrder
        { orderId := some o, customerId := some customerId, items := some items }
  | reserveStock {o customerId : Uuid} {items : List OrderLineItem} : Placed s o customerId items →
      Commanded s .reserveStock { orderId := some o, lines := some (reservationLines items) }
  | authorizePayment {o customerId : Uuid} {customerId' : Option Uuid} {items : List OrderLineItem}
      {lines : List ReservationLine} : Placed s o customerId items → Reserved s o lines →
      Commanded s .authorizePayment
        { orderId := some o, customerId := customerId'
          amountCents := some (OrderAggregate.totalCents items) }
  | confirmOrder {o customerId p : Uuid} {items : List OrderLineItem} :
      Placed s o customerId items → Authorized s o p (OrderAggregate.totalCents items) →
      Commanded s .confirmOrder { orderId := some o, paymentId := some p }
  | cancelOrder {o : Uuid} {reason : Option String} : ReservationFailed s o ∨ Declined s o →
      Commanded s .cancelOrder { orderId := some o, reason }

/-- What a published event rests on. -/
inductive Announced (s : Shared) : EventType → Payload → Prop
  | orderCreated {o customerId : Uuid} {items : List OrderLineItem} : Placed s o customerId items →
      Announced s .orderCreated
        { orderId := some o, customerId := some customerId, items := some items
          totalCents := some (OrderAggregate.totalCents items) }
  | orderConfirmed {o p : Uuid} :
      Announced s .orderConfirmed { orderId := some o, paymentId := some p }
  | orderCancelled {o : Uuid} {reason : String} :
      Announced s .orderCancelled { orderId := some o, reason := some reason }
  | inventoryReserved {o customerId reservationId : Uuid} {items : List OrderLineItem} :
      Placed s o customerId items → Reserved s o (reservationLines items) →
      Announced s .inventoryReserved
        { reservationId := some reservationId, orderId := some o
          lines := some (reservationLines items) }
  | inventoryReservationFailed {o : Uuid} {sku reason : String} : ReservationFailed s o →
      Announced s .inventoryReservationFailed
        { orderId := some o, sku := some sku, reason := some reason }
  | paymentAuthorized {o customerId p : Uuid} {items : List OrderLineItem}
      {pspReference : Option String} :
      Placed s o customerId items → Authorized s o p (OrderAggregate.totalCents items) →
      Announced s .paymentAuthorized
        { paymentId := some p, orderId := some o
          amountCents := some (OrderAggregate.totalCents items), pspReference }
  | paymentDeclined {o p : Uuid} {declineCode reason : String} : Declined s o →
      Announced s .paymentDeclined
        { paymentId := some p, orderId := some o, declineCode := some declineCode
          reason := some reason }

/-- The streams there are, and what they rest on. -/
inductive Recorded (s : Shared) : (svc : Service) → String → List (EventStoreRow svc) → Prop
  | nil {svc : Service} {id : String} : Recorded s svc id []
  | created {o customerId : Uuid} {items : List OrderLineItem} {r : EventStoreRow .order} :
      Placed s o customerId items → r.event = .orderCreated
        { orderId := o, customerId, items, totalCents := OrderAggregate.totalCents items } →
      Recorded s .order o [r]
  | confirmed {o customerId customerId' p : Uuid} {items items' : List OrderLineItem}
      {r r' : EventStoreRow .order} : Placed s o customerId items → r.event = .orderCreated
        { orderId := o, customerId, items, totalCents := OrderAggregate.totalCents items } →
      Placed s o customerId' items' → Authorized s o p (OrderAggregate.totalCents items') →
      r'.event = .orderConfirmed { orderId := o, paymentId := p } → Recorded s .order o [r, r']
  | cancelled {o customerId : Uuid} {items : List OrderLineItem} {reason : String}
      {r r' : EventStoreRow .order} :
      Placed s o customerId items → r.event = .orderCreated
        { orderId := o, customerId, items, totalCents := OrderAggregate.totalCents items } →
      ReservationFailed s o ∨ Declined s o →
      r'.event = .orderCancelled { orderId := o, reason } → Recorded s .order o [r, r']
  | reserved {o customerId reservationId : Uuid} {items : List OrderLineItem}
      {r : EventStoreRow .inventory} : Placed s o customerId items → Asked s .reserveStock o →
      r.event = .inventoryReserved
        { reservationId, orderId := o, lines := reservationLines items } →
      Recorded s .inventory o [r]
  | reservationFailed {o : Uuid} {sku reason : String} {r : EventStoreRow .inventory} :
      Asked s .reserveStock o →
      r.event = .inventoryReservationFailed { orderId := o, sku, reason } →
      Recorded s .inventory o [r]
  | authorized {o customerId p : Uuid} {items : List OrderLineItem} {lines : List ReservationLine}
      {pspReference : Option String} {r : EventStoreRow .payment} : Placed s o customerId items →
      Asked s .authorizePayment o → Reserved s o lines → r.event = .paymentAuthorized
        { paymentId := p, orderId := o, amountCents := OrderAggregate.totalCents items
          pspReference } →
      Recorded s .payment p [r]
  | declined {o p : Uuid} {lines : List ReservationLine} {declineCode reason : String}
      {r : EventStoreRow .payment} : Asked s .authorizePayment o → Reserved s o lines →
      r.event = .paymentDeclined { paymentId := p, orderId := o, declineCode, reason } →
      Recorded s .payment p [r]

section Grow

variable {s s' : Shared}

theorem Commanded.grow {type : CommandType} {payload : Payload} (h : Commanded s type payload)
    (hgrow : Grows s s') : Commanded s' type payload := by
  cases h with
  | createOrder hplaced => exact .createOrder (hplaced.grow hgrow)
  | reserveStock hplaced => exact .reserveStock (hplaced.grow hgrow)
  | authorizePayment hplaced hreserved =>
    exact .authorizePayment (hplaced.grow hgrow) (hreserved.grow hgrow)
  | confirmOrder hplaced hauthorized =>
    exact .confirmOrder (hplaced.grow hgrow) (hauthorized.grow hgrow)
  | cancelOrder hfailed => exact .cancelOrder (hfailed.imp (·.grow hgrow) (·.grow hgrow))

theorem Announced.grow {type : EventType} {payload : Payload} (h : Announced s type payload)
    (hgrow : Grows s s') : Announced s' type payload := by
  cases h with
  | orderCreated hplaced => exact .orderCreated (hplaced.grow hgrow)
  | orderConfirmed => exact .orderConfirmed
  | orderCancelled => exact .orderCancelled
  | inventoryReserved hplaced hreserved =>
    exact .inventoryReserved (hplaced.grow hgrow) (hreserved.grow hgrow)
  | inventoryReservationFailed hfailed => exact .inventoryReservationFailed (hfailed.grow hgrow)
  | paymentAuthorized hplaced hauthorized =>
    exact .paymentAuthorized (hplaced.grow hgrow) (hauthorized.grow hgrow)
  | paymentDeclined hdeclined => exact .paymentDeclined (hdeclined.grow hgrow)

theorem Recorded.grow {svc : Service} {id : String} {rows : List (EventStoreRow svc)}
    (h : Recorded s svc id rows) (hgrow : Grows s s') : Recorded s' svc id rows := by
  cases h with
  | nil => exact .nil
  | created hplaced hevent => exact .created (hplaced.grow hgrow) hevent
  | confirmed hplaced hevent hplaced' hauthorized hevent' =>
    exact .confirmed (hplaced.grow hgrow) hevent (hplaced'.grow hgrow) (hauthorized.grow hgrow)
      hevent'
  | cancelled hplaced hevent hfailed hevent' =>
    exact .cancelled (hplaced.grow hgrow) hevent (hfailed.imp (·.grow hgrow) (·.grow hgrow)) hevent'
  | reserved hplaced hasked hevent =>
    exact .reserved (hplaced.grow hgrow) (hasked.grow hgrow) hevent
  | reservationFailed hasked hevent => exact .reservationFailed (hasked.grow hgrow) hevent
  | authorized hplaced hasked hreserved hevent =>
    exact .authorized (hplaced.grow hgrow) (hasked.grow hgrow) (hreserved.grow hgrow) hevent
  | declined hasked hreserved hevent =>
    exact .declined (hasked.grow hgrow) (hreserved.grow hgrow) hevent

end Grow

/-! ## From streams to events -/

section Streams

variable {s : Shared} {svc : Service} {id : String} {rows : List (EventStoreRow svc)}
  {r : EventStoreRow svc}

/-- The state after the events of a stream of one or two. -/
theorem replay_one {svc : Service} (r : EventStoreRow svc) :
    replay svc [r] = svc.when svc.blankState r.event := rfl

theorem replay_two {svc : Service} (r r' : EventStoreRow svc) :
    replay svc [r, r'] = svc.when (svc.when svc.blankState r.event) r'.event := rfl

theorem HasStream.first (h : HasStream svc s.db id (r :: rows)) : First svc s id r.event :=
  ⟨r, rows, h, rfl⟩

/-- Every event of the stream announces what it rests on. -/
theorem Recorded.announced (h : Recorded s svc id rows) (hrows : HasStream svc s.db id rows)
    (hr : r ∈ rows) : Announced s (svc.eventType r.event) (svc.payload r.event) := by
  cases h with
  | nil => exact absurd hr List.not_mem_nil
  | created hplaced hevent =>
    obtain rfl := List.mem_singleton.mp hr
    rw [hevent]
    exact .orderCreated hplaced
  | confirmed hplaced hevent _ _ hevent' =>
    obtain rfl | hr := List.mem_cons.mp hr
    · rw [hevent]
      exact .orderCreated hplaced
    · obtain rfl := List.mem_singleton.mp hr
      rw [hevent']
      exact .orderConfirmed
  | cancelled hplaced hevent _ hevent' =>
    obtain rfl | hr := List.mem_cons.mp hr
    · rw [hevent]
      exact .orderCreated hplaced
    · obtain rfl := List.mem_singleton.mp hr
      rw [hevent']
      exact .orderCancelled
  | reserved hplaced _ hevent =>
    obtain rfl := List.mem_singleton.mp hr
    have hfirst := hrows.first
    rw [hevent] at hfirst ⊢
    exact .inventoryReserved hplaced ⟨_, hfirst⟩
  | reservationFailed _ hevent =>
    obtain rfl := List.mem_singleton.mp hr
    have hfirst := hrows.first
    rw [hevent] at hfirst ⊢
    exact .inventoryReservationFailed ⟨_, _, hfirst⟩
  | authorized hplaced _ _ hevent =>
    obtain rfl := List.mem_singleton.mp hr
    have hfirst := hrows.first
    rw [hevent] at hfirst ⊢
    exact .paymentAuthorized hplaced ⟨_, hfirst⟩
  | declined _ _ hevent =>
    obtain rfl := List.mem_singleton.mp hr
    have hfirst := hrows.first
    rw [hevent] at hfirst ⊢
    exact .paymentDeclined ⟨_, _, _, hfirst⟩

/-- An outbox row is that of an event of its aggregate's stream. -/
theorem Consistent.outbox_event {db : Db} (hdb : Consistent db) {oid : Uuid} {row : OutboxRow}
    (hrow : Store.row db (.outbox svc oid) = some row) :
    ∃ rows, HasStream svc db row.aggregateId rows ∧
      ∃ r ∈ rows, row = outboxRow svc row.aggregateId r := by
  obtain ⟨rows, oids, hrows, houtbox, -⟩ := hdb.aggregate svc row.aggregateId
  refine ⟨rows, hrows, ?_⟩
  have hmem := houtbox.only oid row hrow rfl
  obtain ⟨k, hk, hget⟩ := List.mem_iff_getElem.mp hmem
  have hlt : k < rows.length := by
    have hlen := houtbox.each.length_eq
    omega
  have hsame := houtbox.each.get hk hlt
  refine ⟨rows[k], List.getElem_mem hlt, ?_⟩
  have hk' : Store.row db (.outbox svc oids[k]) = some (outboxRow svc row.aggregateId rows[k]) := hsame
  rw [hget, hrow] at hk'
  exact Option.some.inj hk'

end Streams

/-! ## The orchestrator -/

/-- The amount in a saga's context is that of the order's items. -/
def ContextOk (s : Shared) (o : Uuid) (context : OrderFulfillmentContext) : Prop :=
  ∃ customerId items, Placed s o customerId items ∧
    context.amountCents = some (OrderAggregate.totalCents items)

theorem ContextOk.grow {s s' : Shared} {o : Uuid} {context : OrderFulfillmentContext}
    (h : ContextOk s o context) (hgrow : Grows s s') : ContextOk s' o context := by
  obtain ⟨customerId, items, hplaced, hamount⟩ := h
  exact ⟨customerId, items, hplaced.grow hgrow, hamount⟩

/-- A payload without an amount leaves the context's. -/
theorem ContextOk.spread {s : Shared} {o : Uuid} {context : OrderFulfillmentContext}
    {payload : Payload} (h : ContextOk s o context) (hnone : payload.amountCents = none) :
    ContextOk s o (context.spread payload) := by
  obtain ⟨customerId, items, hplaced, hamount⟩ := h
  refine ⟨customerId, items, hplaced, ?_⟩
  show (payload.amountCents <|> context.amountCents) = _
  rw [hnone, hamount]
  rfl

end Saganova
