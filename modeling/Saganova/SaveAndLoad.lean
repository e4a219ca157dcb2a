import Saganova.Concurrency.Statements
import Saganova.ServiceConsistency

/-!
# Save and load are inverse

A `History` is what one writer does with one aggregate: it creates an instance,
calls its methods, saves it and loads it again, in any order and any number of
times, while others write elsewhere.  Stored and queued events together replay
to the live state (`Live`), so after every save the aggregate that is loaded is
the live one (`saveAndLoad`).

`save` appends all queued events, from the expected version on (`EventsAppended`).
The payload crosses a JSON column, which leaves undefined fields out; `when`
finds there the event that was applied (`Service.ofColumns_columns`).
-/

namespace Saganova

open Concurrency

/-! ## Saves of several events -/

section Append

variable {svc : Service} {id correlationId : String} {ids : ℕ → Uuid} {db db' : Db}

/-- `db'` holds the events at the sequences after `version`, which were free, and
every other event as it was. -/
structure EventsAppended (svc : Service) (id correlationId : String) (version : ℕ)
    (events : List (UncommittedEvent svc.Event)) (db db' : Db) : Prop where
  free : ∀ k < events.length, Store.row db (.eventStore svc id (version + k + 1)) = none
  stored : ∀ k evt, events[k]? = some evt →
    Store.row db' (.eventStore svc id (version + k + 1)) =
      some (eventRow svc evt.event evt.occurredAt correlationId)
  others : ∀ svc' id' k,
    ¬ (svc' = svc ∧ id' = id ∧ version < k ∧ k ≤ version + events.length) →
      Store.row db' (.eventStore svc' id' k) = Store.row db (.eventStore svc' id' k)

theorem appended_of_runs {version : ℕ} {events : List (UncommittedEvent svc.Event)}
    (h : Tx.Runs db (appendEvents svc id correlationId ids version events) () db') :
    EventsAppended svc id correlationId version events db db' := by
  induction events generalizing version db with
  | nil =>
    obtain ⟨-, rfl⟩ := Tx.runs_pure.mp h
    exact ⟨nofun, nofun, fun _ _ _ _ => rfl⟩
  | cons evt events ih =>
    obtain ⟨u, db₁, hevent, h⟩ := Tx.runs_bind.mp h
    obtain ⟨u, db₂, houtbox, h⟩ := Tx.runs_bind.mp h
    obtain ⟨hfree, rfl⟩ := runs_insert.mp hevent
    obtain ⟨-, rfl⟩ := runs_insert.mp houtbox
    have hrest := ih h
    refine ⟨fun k hk => ?_, fun k evt' hk => ?_, fun svc' id' k hk => ?_⟩
    · cases k with
      | zero => exact hfree
      | succ k =>
        have hlt : k < events.length := Nat.lt_of_succ_lt_succ hk
        have hfree' := hrest.free k hlt
        rw [Store.row_cons_ne _ _ (by simp), Store.row_cons_ne _ _ (by simp; omega)] at hfree'
        rwa [show version + (k + 1) + 1 = version + 1 + k + 1 by omega]
    · cases k with
      | zero =>
        obtain rfl := Option.some.inj hk
        rw [Nat.add_zero, hrest.others svc id (version + 1) (by omega),
          Store.row_cons_ne _ _ (by simp), Store.row_cons_self]
        rfl
      | succ k =>
        rw [show version + (k + 1) + 1 = version + 1 + k + 1 by omega]
        exact hrest.stored k evt' hk
    · rw [List.length_cons] at hk
      rw [hrest.others svc' id' k fun hin => hk ⟨hin.1, hin.2.1, by omega, by omega⟩,
        Store.row_cons_ne _ _ (by simp), Store.row_cons_ne]
      intro heq
      cases heq
      exact hk ⟨rfl, rfl, by omega, by omega⟩

/-- Not a key of an event store. -/
def NoEvent (k : Key) : Prop := ∀ svc id sequence, k ≠ .eventStore svc id sequence

theorem writesOnly_insert {P : Key → Prop} {k : Key} {row : Row k} (hk : P k) :
    (insert k row).WritesOnly P := by
  rintro (- | old)
  · exact ⟨hk, trivial⟩
  · trivial

theorem writesOnly_upsert {P : Key → Prop} {k : Key} {ins : DbTx Unit} {update : Row k → Row k}
    (hk : P k) (hins : ins.WritesOnly P) : (upsert k ins update).WritesOnly P := by
  rintro (- | old)
  · exact hins
  · exact ⟨hk, trivial⟩

theorem writesOnly_integer {P : Key → Prop} (q : Num) : (integer q).WritesOnly P := by
  unfold integer
  split <;> trivial

/-- A key of a projection, or of its unique index. -/
inductive IsProjection : Key → Prop
  | row (svc : Service) (id : String) : IsProjection (.projection svc id)
  | index (orderId : Uuid) : IsProjection (.paymentOfOrder orderId)

theorem writesOnly_projection (svc : Service) (agg : svc.Aggregate) :
    (svc.upsertWithinTransaction agg).WritesOnly IsProjection := by
  cases svc with
  | order =>
    refine (writesOnly_integer _).bind fun totalCents => ?_
    exact writesOnly_upsert (.row _ _) (writesOnly_insert (.row _ _))
  | payment =>
    refine (writesOnly_integer _).bind fun amountCents => ?_
    refine writesOnly_upsert (.row _ _) ((writesOnly_insert (.index _)).bind fun _ => ?_)
    exact writesOnly_insert (.row _ _)
  | inventory => exact writesOnly_upsert (.row _ _) (writesOnly_insert (.row _ _))

/-- Upserts leave the event stores alone. -/
theorem writesOnly_upsertWithinTransaction (svc : Service) (agg : svc.Aggregate) :
    (svc.upsertWithinTransaction agg).WritesOnly NoEvent :=
  (writesOnly_projection svc agg).mono fun k hk => by
    cases hk with
    | row _ _ => exact nofun
    | index _ => exact nofun

theorem appended_of_persist {agg : svc.Aggregate}
    (h : Tx.Runs db (persist svc agg correlationId ids) () db') :
    EventsAppended svc agg.id correlationId (expectedVersion svc agg) agg.uncommittedEvents db db' := by
  obtain ⟨u, db₁, hevents, hupsert⟩ := Tx.runs_bind.mp h
  have happended := appended_of_runs hevents
  have hframe : ∀ svc' id k, Store.row db' (.eventStore svc' id k) =
      Store.row db₁ (.eventStore svc' id k) := fun svc' id k =>
    (writesOnly_upsertWithinTransaction svc agg).frame hupsert fun hne => hne svc' id k rfl
  exact ⟨happended.free, fun k evt hk => (hframe _ _ _).trans (happended.stored k evt hk),
    fun svc' id k hk => (hframe _ _ _).trans (happended.others svc' id k hk)⟩

theorem HasStream.appended {rows : List (EventStoreRow svc)}
    {events : List (UncommittedEvent svc.Event)} (hrows : HasStream svc db id rows)
    (h : EventsAppended svc id correlationId rows.length events db db') :
    HasStream svc db' id
      (rows ++ events.map fun evt => eventRow svc evt.event evt.occurredAt correlationId) := by
  constructor
  · rw [h.others svc id 0 (by omega)]
    exact hrows.1
  · intro k
    by_cases hk : k < rows.length
    · rw [h.others svc id (k + 1) (by omega), hrows.2, List.getElem?_append_left hk]
    · rw [List.getElem?_append_right (by omega), List.getElem?_map]
      cases hevt : events[k - rows.length]? with
      | some evt =>
        rw [show k + 1 = rows.length + (k - rows.length) + 1 by omega]
        exact h.stored _ evt hevt
      | none =>
        have hlen := List.getElem?_eq_none_iff.mp hevt
        rw [h.others svc id (k + 1) (by omega), hrows.2, List.getElem?_eq_none_iff.mpr (by omega)]
        rfl

end Append

/-! ## What the JSON columns hold -/

/-- The event that `when` takes the columns `type` and `payload` for, where the
payload has what the type says. -/
def Service.ofColumns : (svc : Service) → EventType → Payload → Option svc.Event
  | .order, .orderCreated, p => do
    pure (.orderCreated { orderId := ← p.orderId, customerId := ← p.customerId
                          items := ← p.items, totalCents := ← p.totalCents })
  | .order, .orderConfirmed, p => do
    pure (.orderConfirmed { orderId := ← p.orderId, customerId := p.customerId
                            paymentId := ← p.paymentId })
  | .order, .orderCancelled, p => do
    pure (.orderCancelled { orderId := ← p.orderId, customerId := p.customerId
                            reason := ← p.reason })
  | .payment, .paymentAuthorized, p => do
    pure (.paymentAuthorized { paymentId := ← p.paymentId, orderId := ← p.orderId
                               amountCents := ← p.amountCents, pspReference := p.pspReference })
  | .payment, .paymentDeclined, p => do
    pure (.paymentDeclined { paymentId := ← p.paymentId, orderId := ← p.orderId
                             customerId := p.customerId, declineCode := ← p.declineCode
                             reason := ← p.reason })
  | .payment, .paymentRefunded, p => do
    pure (.paymentRefunded { paymentId := ← p.paymentId, orderId := ← p.orderId
                             customerId := p.customerId, amountCents := ← p.amountCents
                             reason := p.reason })
  | .inventory, .inventoryReserved, p => do
    pure (.inventoryReserved { reservationId := ← p.reservationId, orderId := ← p.orderId
                               lines := ← p.lines })
  | .inventory, .inventoryReservationFailed, p => do
    pure (.inventoryReservationFailed { orderId := ← p.orderId, sku := ← p.sku
                                        reason := ← p.reason })
  | .inventory, .inventoryReleased, p => do
    pure (.inventoryReleased { reservationId := p.reservationId, orderId := ← p.orderId })
  | _, _, _ => none

theorem Service.ofColumns_columns (svc : Service) (event : svc.Event) :
    svc.ofColumns (svc.eventType event) (svc.payload event) = some event := by
  cases svc <;> cases event <;> rfl

/-- `loadAggregate`, with every event taken from the columns of its row. -/
def loadColumns (svc : Service) (db : Db) (id : String) : Option svc.Aggregate := do
  let history ← (loadStream svc db id).mapM fun r => do
    pure { r with event := ← svc.ofColumns (svc.eventType r.event) (svc.payload r.event) }
  hydrateFrom svc id history

theorem loadColumns_eq (svc : Service) (db : Db) (id : String) :
    loadColumns svc db id = hydrateFrom svc id (loadStream svc db id) := by
  unfold loadColumns
  simp only [Service.ofColumns_columns]
  have hmap : (loadStream svc db id).mapM (fun r => (pure r : Option _)) =
      pure ((loadStream svc db id).map fun r => r) := List.mapM_pure
  rw [List.map_id'] at hmap
  exact congrArg (· >>= hydrateFrom svc id) hmap

/-! ## Histories -/

/-- The factory methods of the aggregates. -/
inductive Creation : Service → Type
  | createNew (customerId : Uuid) (items : List OrderLineItem) : Creation .order
  | authorize (orderId customerId : Uuid) (amountCents : Num) (pspReference : Option String) :
    Creation .payment
  | decline (orderId : Uuid) (declineCode reason : String) : Creation .payment
  | reserved (reservationId : Uuid) (lines : List ReservationLine) : Creation .inventory
  | failed (sku reason : String) : Creation .inventory

def Creation.create : {svc : Service} → Creation svc → String → Time → svc.Aggregate
  | _, .createNew customerId items, id, time => OrderAggregate.createNew id customerId items time
  | _, .authorize orderId customerId amountCents pspReference, id, time =>
    PaymentAggregate.authorize id orderId customerId amountCents pspReference time
  | _, .decline orderId declineCode reason, id, time =>
    PaymentAggregate.decline id orderId declineCode reason time
  | _, .reserved reservationId lines, id, time =>
    StockAggregate.reserved id reservationId lines time
  | _, .failed sku reason, id, time => StockAggregate.failed id sku reason time

/-- The domain methods. -/
inductive Method : Service → Type
  | confirm (paymentId : Uuid) : Method .order
  | cancel (reason : String) : Method .order
  | refund (reason : Option String) : Method .payment
  | release : Method .inventory

def Method.call : {svc : Service} → Method svc → svc.Aggregate → Time → Except Err svc.Aggregate
  | _, .confirm paymentId, a, time => OrderAggregate.confirm a paymentId time
  | _, .cancel reason, a, time => OrderAggregate.cancel a reason time
  | _, .refund reason, a, time => PaymentAggregate.refund a reason time
  | _, .release, a, time => StockAggregate.release a time

theorem Creation.create_eq {svc : Service} (c : Creation svc) (id : String) (time : Time) :
    ∃ event, c.create id time = (svc.blank id).apply svc.when event time := by
  cases c with
  | createNew customerId items =>
    exact ⟨.orderCreated { orderId := id, customerId, items
                           totalCents := OrderAggregate.totalCents items }, rfl⟩
  | authorize orderId customerId amountCents pspReference =>
    exact ⟨.paymentAuthorized { paymentId := id, orderId, amountCents, pspReference }, rfl⟩
  | decline orderId declineCode reason =>
    exact ⟨.paymentDeclined { paymentId := id, orderId, declineCode, reason }, rfl⟩
  | reserved reservationId lines =>
    exact ⟨.inventoryReserved { reservationId, orderId := id, lines }, rfl⟩
  | failed sku reason =>
    exact ⟨.inventoryReservationFailed { orderId := id, sku, reason }, rfl⟩

/-- A method that does not throw applies one event. -/
theorem Method.call_ok {svc : Service} {m : Method svc} {a a' : svc.Aggregate} {time : Time}
    (h : m.call a time = .ok a') : ∃ event, a' = a.apply svc.when event time := by
  cases m with
  | confirm paymentId =>
    simp only [Method.call, OrderAggregate.confirm] at h
    split at h
    · nomatch h
    · exact ⟨_, (Except.ok.inj h).symm⟩
  | cancel reason =>
    simp only [Method.call, OrderAggregate.cancel] at h
    split at h
    · nomatch h
    · exact ⟨_, (Except.ok.inj h).symm⟩
  | refund reason =>
    simp only [Method.call, PaymentAggregate.refund] at h
    split at h
    · nomatch h
    · exact ⟨_, (Except.ok.inj h).symm⟩
  | release =>
    simp only [Method.call, StockAggregate.release] at h
    split at h
    · nomatch h
    · exact ⟨_, (Except.ok.inj h).symm⟩

def Service.save : (svc : Service) → svc.Aggregate → String → Handler svc.Aggregate
  | .order => OrderEventStoreRepository.save
  | .payment => PaymentEventStoreRepository.save
  | .inventory => InventoryEventStoreRepository.save

def Service.loadAggregate : (svc : Service) → String → Handler (Option svc.Aggregate)
  | .order => OrderEventStoreRepository.loadAggregate
  | .payment => PaymentEventStoreRepository.loadAggregate
  | .inventory => InventoryEventStoreRepository.loadAggregate

section History

variable (answer : ℕ → (act : Act) → act.Reply)

/-- The save commits, and leaves this instance and these rows. -/
def Saves (svc : Service) (a : svc.Aggregate) (correlationId : String) (db : Db)
    (a' : svc.Aggregate) (db' : Db) : Prop :=
  ∃ s s' : Concurrency.Shared Row Act.Reply Unit, s.db = db ∧ s'.db = db' ∧
    (svc.save a correlationId).run answer () s = (.ok a', s')

/-- Loading returns `a`, and changes nothing. -/
def Loads (svc : Service) (id : String) (db : Db) (a : Option svc.Aggregate) : Prop :=
  ∀ s : Concurrency.Shared Row Act.Reply Unit, s.db = db →
    (svc.loadAggregate id).run answer () s = (.ok a, s)

/-- What one writer makes of one aggregate: the live instance, and the database. -/
inductive History (svc : Service) (id : String) : svc.Aggregate → Db → Prop
  | create {db : Db} (c : Creation svc) (time : Time) : HasStream svc db id [] →
    History svc id (c.create id time) db
  | call {a a' : svc.Aggregate} {db : Db} (m : Method svc) (time : Time) : History svc id a db →
    m.call a time = .ok a' → History svc id a' db
  /-- a method that throws does so before it applies anything -/
  | callFailed {a : svc.Aggregate} {db : Db} {err : Err} (m : Method svc) (time : Time) :
    History svc id a db → m.call a time = .error err → History svc id a db
  | save {a a' : svc.Aggregate} {db db' : Db} (correlationId : String) : History svc id a db →
    Saves answer svc a correlationId db a' db' → History svc id a' db'
  | load {a a' : svc.Aggregate} {db : Db} : History svc id a db → Loads answer svc id db (some a') →
    History svc id a' db
  /-- others write elsewhere -/
  | elsewhere {a : svc.Aggregate} {db db' : Db} : History svc id a db →
    (∀ k, Store.row db' (.eventStore svc id k) = Store.row db (.eventStore svc id k)) →
    History svc id a db'

end History

/-- The stored events and the queued ones replay to the live state. -/
structure Live (svc : Service) (id : String) (a : svc.Aggregate) (db : Db)
    (rows : List (EventStoreRow svc)) : Prop where
  stream : HasStream svc db id rows
  id : a.id = id
  version : a.version = rows.length + a.uncommittedEvents.length
  state : a.state = (a.uncommittedEvents.map (·.event)).foldl svc.when (replay svc rows)

section Live

variable {svc : Service} {id : String} {a a' : svc.Aggregate} {db db' : Db}
  {answer : ℕ → (act : Act) → act.Reply} {rows : List (EventStoreRow svc)}

theorem Live.apply (h : Live svc id a db rows) (event : svc.Event) (time : Time) :
    Live svc id (a.apply svc.when event time) db rows where
  stream := h.stream
  id := h.id
  version := by
    show a.version + 1 = rows.length +
      (a.uncommittedEvents ++ [(⟨event, time⟩ : UncommittedEvent svc.Event)]).length
    rw [h.version, List.length_append, List.length_singleton]
    omega
  state := by
    show svc.when a.state event =
      ((a.uncommittedEvents ++ [(⟨event, time⟩ : UncommittedEvent svc.Event)]).map
        (·.event)).foldl svc.when (replay svc rows)
    rw [List.map_append, List.foldl_append, ← h.state]
    rfl

theorem Live.expectedVersion (h : Live svc id a db rows) :
    expectedVersion svc a = rows.length := by
  unfold Saganova.expectedVersion
  rw [h.version]
  omega

/-- A save moves the queued events to the stream. -/
theorem Live.persisted {correlationId : String} {ids : ℕ → Uuid} (h : Live svc id a db rows)
    (hruns : Tx.Runs db (persist svc a correlationId ids) () db') :
    Live svc id a.markEventsAsCommitted db' (rows ++ a.uncommittedEvents.map fun evt =>
      eventRow svc evt.event evt.occurredAt correlationId) := by
  have happended := appended_of_persist hruns
  rw [h.id, h.expectedVersion] at happended
  refine ⟨h.stream.appended happended, h.id, ?_, ?_⟩
  · show a.version = _ + 0
    rw [h.version, List.length_append, List.length_map, Nat.add_zero]
  · show a.state = replay svc _
    rw [h.state, replay, replay, List.map_append, List.foldl_append, List.map_map]
    rfl

theorem markEventsAsCommitted_of_isEmpty {σ η : Type} {a : AggregateRoot σ η}
    (h : a.uncommittedEvents.isEmpty) : a.markEventsAsCommitted = a := by
  show { a with uncommittedEvents := [] } = a
  rw [← List.isEmpty_iff.mp h]

/-- How a save ends that draws these ids. -/
inductive SaveOutcome (svc : Service) (a : svc.Aggregate) (correlationId : String)
    (ids : ℕ → Uuid) (db : Db) : Except Err svc.Aggregate → Db → Prop
  | nothingQueued : a.uncommittedEvents.isEmpty → SaveOutcome svc a correlationId ids db (.ok a) db
  | saved {writes : Db} : ¬ a.uncommittedEvents.isEmpty →
    (persist svc a correlationId ids).exec db [] = .ok ((), writes) →
    SaveOutcome svc a correlationId ids db (.ok a.markEventsAsCommitted) (writes ++ db)
  | failed {err : Err} : ¬ a.uncommittedEvents.isEmpty →
    (persist svc a correlationId ids).exec db [] = .error err →
    SaveOutcome svc a correlationId ids db (.error (toConcurrencyError svc a err)) db

/-- The three `save` functions end alike. -/
theorem Service.save_outcome {μ : Type} (answer : ℕ → (act : Act) → act.Reply) (a : svc.Aggregate)
    (correlationId : String) (t : μ) (s : Concurrency.Shared Row Act.Reply μ) :
    (svc.save a correlationId).After answer t (fun r s' => SaveOutcome svc a correlationId
      (answer s.trace.length .randomUUIDs) s.db r s'.db) s := by
  -- the transaction, with its errors replaced in one of two places
  have orders : ∀ svc (a : svc.Aggregate), (Saganova.save svc a correlationId).After answer t
      (fun r s' => SaveOutcome svc a correlationId (answer s.trace.length .randomUUIDs) s.db r s'.db)
      s := by
    intro svc a
    unfold Saganova.save
    split
    · rename_i hempty
      exact .nothingQueued hempty
    · rename_i hqueued
      rw [randomUUIDs_bind]
      refine Proc.after_act (Proc.after_bind _ _ (Proc.after_tryCatch _ _ (Proc.after_tx ?_ ?_)))
      · exact fun writes hexec => .saved hqueued hexec
      · exact fun err hexec => .failed hqueued hexec
  cases svc with
  | order => exact orders .order a
  | payment => exact orders .payment a
  | inventory =>
    show (InventoryEventStoreRepository.save a correlationId).After answer t _ s
    unfold InventoryEventStoreRepository.save
    rw [randomUUIDs_bind]
    refine Proc.after_act (Proc.after_bind _ _ ?_)
    unfold InventoryEventStoreRepository.saveWithinTransaction
    split
    · rename_i hempty
      refine Proc.after_tx (fun writes hexec => ?_) nofun
      cases hexec
      show SaveOutcome .inventory a _ _ s.db (.ok a.markEventsAsCommitted) s.db
      rw [markEventsAsCommitted_of_isEmpty hempty]
      exact .nothingQueued hempty
    · rename_i hqueued
      refine Proc.after_tx (fun writes hexec => ?_) (fun err hexec => ?_)
      · exact .saved hqueued (Tx.exec_mapError_ok.mp hexec)
      · rw [Tx.exec_mapError, Shared.acted_db] at hexec
        cases hpersist : (persist .inventory a correlationId
            (answer s.trace.length .randomUUIDs)).exec s.db [] with
        | ok p =>
          rw [hpersist] at hexec
          nomatch hexec
        | error err' =>
          rw [hpersist] at hexec
          cases hexec
          exact .failed hqueued hpersist

/-- What a save that commits did. -/
theorem Service.save_after {μ : Type} (answer : ℕ → (act : Act) → act.Reply) (a : svc.Aggregate)
    (correlationId : String) (t : μ) (s : Concurrency.Shared Row Act.Reply μ) :
    (svc.save a correlationId).After answer t (fun r s' => ∀ a', r = .ok a' →
      a' = a.markEventsAsCommitted ∧ (a.uncommittedEvents = [] ∧ s'.db = s.db ∨
        ∃ ids, Tx.Runs s.db (persist svc a correlationId ids) () s'.db)) s := by
  refine (Service.save_outcome answer a correlationId t s).mono fun r s' houtcome a' hr => ?_
  generalize s'.db = db' at houtcome ⊢
  cases houtcome with
  | nothingQueued hempty =>
    obtain rfl := Except.ok.inj hr
    exact ⟨(markEventsAsCommitted_of_isEmpty hempty).symm, .inl ⟨List.isEmpty_iff.mp hempty, rfl⟩⟩
  | saved _ hexec =>
    obtain rfl := Except.ok.inj hr
    exact ⟨rfl, .inr ⟨_, Tx.runs_of_exec hexec⟩⟩
  | failed _ _ => nomatch hr

theorem Live.saves {correlationId : String} (h : Live svc id a db rows)
    (hsave : Saves answer svc a correlationId db a' db') :
    ∃ rows', Live svc id a' db' rows' ∧ a'.uncommittedEvents = [] ∧
      rows'.length = rows.length + a.uncommittedEvents.length := by
  obtain ⟨s, s', rfl, rfl, hrun⟩ := hsave
  have hafter := Service.save_after answer a correlationId () s
  unfold Proc.After at hafter
  rw [hrun] at hafter
  obtain ⟨rfl, ⟨hnil, hdb⟩ | ⟨ids, hruns⟩⟩ := hafter a' rfl
  · rw [markEventsAsCommitted_of_isEmpty (List.isEmpty_iff.mpr hnil), hdb]
    exact ⟨rows, h, hnil, by rw [hnil]; rfl⟩
  · exact ⟨_, h.persisted hruns, rfl, by rw [List.length_append, List.length_map]⟩

theorem loads_of_stream (answer : ℕ → (act : Act) → act.Reply)
    (h : HasStream svc db id rows) : Loads answer svc id db
    (if rows = [] then none else some (loaded svc id rows)) := by
  rintro s rfl
  have hload : (svc.loadAggregate id).run answer () s =
      (.ok (hydrateFrom svc id (loadStream svc s.db id)), s) := by
    cases svc <;> rfl
  rw [hload, hydrateFrom_loadStream h]

theorem Loads.unique {b b' : Option svc.Aggregate} (h : Loads answer svc id db b)
    (h' : Loads answer svc id db b') : b = b' := by
  have heq := (h ⟨db, []⟩ rfl).symm.trans (h' ⟨db, []⟩ rfl)
  exact Except.ok.inj (congrArg Prod.fst heq)

theorem live_loaded (h : HasStream svc db id rows) : Live svc id (loaded svc id rows) db rows :=
  ⟨h, rfl, rfl, rfl⟩

/-- Something is stored after a save of something stored or queued. -/
theorem ne_nil_of_saved {rows' : List (EventStoreRow svc)}
    (hlength : rows'.length = rows.length + a.uncommittedEvents.length)
    (h : rows ≠ [] ∨ a.uncommittedEvents ≠ []) : rows' ≠ [] := by
  rintro rfl
  have hzero : 0 = rows.length + a.uncommittedEvents.length := hlength
  rcases h with h | h
  · exact h (List.length_eq_zero_iff.mp (by omega))
  · exact h (List.length_eq_zero_iff.mp (by omega))

/-- **Whatever is done with the aggregate, stored and queued events replay to it.** -/
theorem History.live (h : History answer svc id a db) :
    ∃ rows, Live svc id a db rows ∧ (rows ≠ [] ∨ a.uncommittedEvents ≠ []) := by
  induction h with
  | create c time hnil =>
    obtain ⟨event, hcreate⟩ := c.create_eq id time
    rw [hcreate]
    exact ⟨[], (live_loaded hnil).apply event time, .inr (by simp [AggregateRoot.apply])⟩
  | call m time _ hcall ih =>
    obtain ⟨rows, hlive, -⟩ := ih
    obtain ⟨event, rfl⟩ := m.call_ok hcall
    exact ⟨rows, hlive.apply event time, .inr (by simp [AggregateRoot.apply])⟩
  | callFailed m time _ _ ih => exact ih
  | save correlationId _ hsave ih =>
    obtain ⟨rows, hlive, hsome⟩ := ih
    obtain ⟨rows', hlive', -, hlength⟩ := hlive.saves hsave
    exact ⟨rows', hlive', .inl (ne_nil_of_saved hlength hsome)⟩
  | load _ hload ih =>
    obtain ⟨rows, hlive, -⟩ := ih
    have heq := hload.unique (loads_of_stream answer hlive.stream)
    split at heq
    · nomatch heq
    · rename_i hne
      obtain rfl := Option.some.inj heq
      exact ⟨rows, live_loaded hlive.stream, .inl hne⟩
  | elsewhere _ hsame ih =>
    obtain ⟨rows, hlive, hsome⟩ := ih
    refine ⟨rows, ⟨⟨?_, fun k => ?_⟩, hlive.id, hlive.version, hlive.state⟩, hsome⟩
    · rw [hsame]
      exact hlive.stream.1
    · rw [hsame]
      exact hlive.stream.2 k

/-- **Save and load are inverse.** -/
theorem saveAndLoad (answer : ℕ → (act : Act) → act.Reply) (svc : Service)
    (id correlationId : String) (a a' : svc.Aggregate) (db db' : Db)
    (h : History answer svc id a db) (hsave : Saves answer svc a correlationId db a' db') :
    ∃ b rows, Loads answer svc id db' (some b) ∧ loadColumns svc db' id = some b ∧
      HasStream svc db' id rows ∧ b.state = a'.state ∧ b.version = a'.version ∧
      b.version = rows.length ∧ b.uncommittedEvents = [] := by
  obtain ⟨rows, hlive, hsome⟩ := h.live
  obtain ⟨rows', hlive', hnil, hlength⟩ := hlive.saves hsave
  have hne := ne_nil_of_saved hlength hsome
  have hload := loads_of_stream answer hlive'.stream
  have hcolumns := loadColumns_eq svc db' id
  rw [hydrateFrom_loadStream hlive'.stream, if_neg hne] at hcolumns
  rw [if_neg hne] at hload
  refine ⟨loaded svc id rows', rows', hload, hcolumns, hlive'.stream, ?_, ?_, rfl, rfl⟩
  · rw [hlive'.state, hnil]
    rfl
  · rw [hlive'.version, hnil]
    rfl

end Live

/-! ## An order, saved twice -/

theorem saves_of_toBool {answer : ℕ → (act : Act) → act.Reply} (svc : Service) (a : svc.Aggregate)
    {correlationId : String} (s : Concurrency.Shared Row Act.Reply Unit)
    (h : ((svc.save a correlationId).run answer () s).1.toBool = true) :
    Saves answer svc a correlationId s.db a.markEventsAsCommitted
      ((svc.save a correlationId).run answer () s).2.db := by
  have hafter := Service.save_after answer a correlationId () s
  unfold Proc.After at hafter
  refine ⟨s, _, rfl, rfl, Prod.ext ?_ rfl⟩
  generalize ((svc.save a correlationId).run answer () s).1 = result at h hafter
  cases result with
  | ok a' => rw [(hafter a' rfl).1]
  | error e => nomatch h

def newOrder : OrderAggregate :=
  OrderAggregate.createNew order₁ customer₁ [{ sku := "A", qty := 2, unitPriceCents := 500 }] "t"

def orderToConfirm : OrderAggregate :=
  newOrder.markEventsAsCommitted.apply OrderAggregate.when
    (.orderConfirmed { orderId := order₁, paymentId := payment₁ }) "t"

/-- Created, saved, confirmed, cancelled in vain and saved again. -/
theorem saveAndLoad_confirmed : ∃ (db : Db) (b : OrderAggregate),
    Loads allWell .order order₁ db (some b) ∧ b.state = orderToConfirm.state ∧ b.version = 2 := by
  have hcreated : History allWell .order order₁ newOrder [] :=
    .create (.createNew customer₁ [{ sku := "A", qty := 2, unitPriceCents := 500 }]) "t"
      ⟨rfl, fun _ => rfl⟩
  have hsaved := hcreated.save "c"
    (saves_of_toBool .order newOrder ⟨[], []⟩ (by decide +kernel))
  have hconfirmed : History allWell .order order₁ orderToConfirm _ :=
    hsaved.call (.confirm payment₁) "t" rfl
  have hrefused := hconfirmed.callFailed (.cancel "late") "t" rfl
  obtain ⟨b, rows, hload, -, -, hstate, hversion, -⟩ :=
    saveAndLoad allWell .order order₁ "c" _ _ _ _ hrefused
      (saves_of_toBool .order orderToConfirm
        ((Service.order.save newOrder "c").run allWell () ⟨[], []⟩).2 (by decide +kernel))
  exact ⟨_, b, hload, hstate, hversion⟩

end Saganova
