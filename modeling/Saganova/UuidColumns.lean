import Saganova.Concurrency.Following
import Saganova.Concurrency.RowInvariants
import Saganova.EventStreams
import Saganova.Services

/-!
# UUID columns

An id is a string in the code, in `event_store.aggregateId` and in
`outbox.aggregateId`, which are TEXT.  The keys of the projections, the unique
index on `payment_projection.orderId` and the ids in the projections' rows are
UUID: there a string names the row of its UUID however it is spelled, is
written back in one spelling, and is an error where it is no UUID.

`Columns.tx` and `Columns.handler` are what becomes of a handler's statements
there, and `columnSystem` runs the command handlers so.  An id that no UUID
column respells (`Spelled`) makes no difference:
`columnSystem` follows the handlers as they are (`followsColumns`) for the
commands of such ids.

A string with U+0000, which a TEXT column rejects, fails like any statement may.
-/

namespace Saganova

open Concurrency

/-! ## Statements -/

namespace Columns

def invalidUuid : Err := .queryFailed "invalid input syntax for type uuid"

/-- The parameter of a UUID column. -/
def uuid {α : Type} (id : String) (next : Uuid → DbTx α) : DbTx α :=
  match uuidIn id with
  | some u => next u
  | none => throw invalidUuid

/-- One that may be NULL. -/
def nullable {α : Type} : Option String → (Option Uuid → DbTx α) → DbTx α
  | some id, next => uuid id fun u => next (some u)
  | none, next => next none

/-- Find and lock the row at a key. -/
def lock {α : Type} : (k : Key) → (Option (Row k) → DbTx α) → DbTx α
  | .stockLevel sku, next => .lock (.stockLevel sku) next
  | .eventStore svc aggregateId sequence, next => .lock (.eventStore svc aggregateId sequence) next
  | .outbox svc id, next => uuid id fun u => .lock (.outbox svc u) next
  | .projection svc id, next => uuid id fun u => .lock (.projection svc u) next
  | .paymentOfOrder orderId, next => uuid orderId fun u => .lock (.paymentOfOrder u) next
  | .sagaInstance sagaId, next => uuid sagaId fun u => .lock (.sagaInstance u) next

/-- Write a row. -/
def put {α : Type} : (k : Key) → Row k → DbTx α → DbTx α
  | .stockLevel sku, row, next => .put (.stockLevel sku) row next
  | .eventStore svc aggregateId sequence, row, next =>
    .put (.eventStore svc aggregateId sequence) row next
  | .outbox svc id, row, next => uuid id fun u => .put (.outbox svc u) row next
  | .projection .order id, (row : OrderProjectionRow), next =>
    uuid id fun orderId =>
    uuid row.customerId fun customerId =>
    nullable row.paymentId fun paymentId =>
      .put (.projection .order orderId) { row with customerId, paymentId } next
  | .projection .payment id, (row : PaymentProjectionRow), next =>
    uuid id fun paymentId =>
    uuid row.orderId fun orderId =>
      .put (.projection .payment paymentId) { row with orderId } next
  | .projection .inventory id, (row : ReservationProjectionRow), next =>
    uuid id fun orderId =>
    nullable row.reservationId fun reservationId =>
      .put (.projection .inventory orderId) { row with reservationId } next
  | .paymentOfOrder orderId, (paymentId : Uuid), next =>
    uuid orderId fun orderId => uuid paymentId fun paymentId =>
      .put (.paymentOfOrder orderId) paymentId next
  | .sagaInstance sagaId, row, next => uuid sagaId fun u => .put (.sagaInstance u) row next

def tx {α : Type} : DbTx α → DbTx α
  | .pure a => .pure a
  | .throw e => .throw e
  | .lock k next => lock k fun r => tx (next r)
  | .put k row next => put k row (tx next)

/-! ## Queries -/

/-- A row that is named by an order's id, as one finds it who spells the UUID `u` as `id`. -/
def spelledAs (u : Uuid) (id : String) : Sigma Row → Sigma Row
  | ⟨.paymentOfOrder orderId, row⟩ =>
    if orderId = u then ⟨.paymentOfOrder id, row⟩ else ⟨.paymentOfOrder orderId, row⟩
  | ⟨.projection .inventory orderId, row⟩ =>
    if orderId = u then ⟨.projection .inventory id, row⟩ else ⟨.projection .inventory orderId, row⟩
  | entry => entry

/-- The rows for the queries of a handler that look up `id` in a UUID column, if it
has any: they fail where it is no UUID. -/
def select (id : Option String) (db : Db) : Except Err Db :=
  match id with
  | none => .ok db
  | some id =>
    match uuidIn id with
    | some u => .ok (db.map (spelledAs u id))
    | none => .error invalidUuid

/-- No query of a command handler stands in a `try`: one that fails ends it. -/
def handler {α : Type} (id : Option String) : Handler α → Handler α
  | .pure a => .pure a
  | .throw e => .throw e
  | .read next => .read fun db =>
    match select id db with
    | .ok db => handler id (next db)
    | .error e => .throw e
  | .tx body next => .tx (tx body) fun r => handler id (next r)
  | .act a next => .act a fun r => handler id (next r)

end Columns

/-- The id that the queries of a task look up in a UUID column: both `findByOrderId`
have the order's id.  `loadStream` asks a TEXT column. -/
def Task.queriedId : Task → Option String
  | .command .payment record =>
    if record.value.type = .authorizePayment then record.value.payload.orderId else none
  | .command .inventory record =>
    if record.value.type = .reserveStock then record.value.payload.orderId else none
  | _ => none

/-- `randomUUID()` spells an id as a UUID column does. -/
def Drawn : (a : Act) → Act.Reply a → Prop
  | .randomUUID, (id : Uuid) => Canonical id
  | .randomUUIDs, (ids : ℕ → Uuid) => ∀ n, Canonical (ids n)
  | _, _ => True

/-- Any number of command handlers, over the columns of the three databases. -/
def columnSystem : System where
  code t := Columns.handler t.queriedId (code t)
  start s := Fresh s.db ∧ s.trace = []
  spawn _ t := ∃ svc record, t = .command svc record
  reply _ _ a r := Drawn a r
  fault := databaseFault

/-! ## What the columns hold -/

/-- The ids of the keys in UUID columns are spelled as these give them back. -/
def Key.Canonical : Key → Prop
  | .outbox _ id | .projection _ id | .paymentOfOrder id => Saganova.Canonical id
  | .stockLevel _ | .eventStore _ _ _ | .sagaInstance _ => True

section Canonical

variable {α : Type}

/-- A body that writes such keys only. -/
abbrev WritesCanonical (t : DbTx α) : Prop :=
  t.Respects (fun _ => True) fun k _ => k.Canonical

theorem writesCanonical_uuid {id : String} {next : Uuid → DbTx α}
    (h : ∀ u, Canonical u → WritesCanonical (next u)) : WritesCanonical (Columns.uuid id next) := by
  unfold Columns.uuid
  split
  · rename_i u hu
    exact h u (uuidIn_idem hu)
  · trivial

theorem writesCanonical_nullable {id : Option String} {next : Option Uuid → DbTx α}
    (h : ∀ o, WritesCanonical (next o)) : WritesCanonical (Columns.nullable id next) := by
  cases id with
  | none => exact h none
  | some id => exact writesCanonical_uuid fun u _ => h (some u)

theorem writesCanonical_lock {k : Key} {next : Option (Row k) → DbTx α}
    (h : ∀ r, WritesCanonical (next r)) : WritesCanonical (Columns.lock k next) := by
  cases k with
  | stockLevel sku => exact ⟨trivial, fun r _ => h r⟩
  | eventStore svc id n => exact ⟨trivial, fun r _ => h r⟩
  | outbox svc id => exact writesCanonical_uuid fun u _ => ⟨trivial, fun r _ => h r⟩
  | projection svc id => exact writesCanonical_uuid fun u _ => ⟨trivial, fun r _ => h r⟩
  | paymentOfOrder id => exact writesCanonical_uuid fun u _ => ⟨trivial, fun r _ => h r⟩
  | sagaInstance id => exact writesCanonical_uuid fun u _ => ⟨trivial, fun r _ => h r⟩

theorem writesCanonical_put {k : Key} {row : Row k} {next : DbTx α} (h : WritesCanonical next) :
    WritesCanonical (Columns.put k row next) := by
  cases k with
  | stockLevel sku => exact ⟨trivial, trivial, h⟩
  | eventStore svc id n => exact ⟨trivial, trivial, h⟩
  | outbox svc id => exact writesCanonical_uuid fun u hu => ⟨trivial, hu, h⟩
  | projection svc id =>
    cases svc with
    | order =>
      exact writesCanonical_uuid fun u hu => writesCanonical_uuid fun _ _ =>
        writesCanonical_nullable fun _ => ⟨trivial, hu, h⟩
    | payment =>
      exact writesCanonical_uuid fun u hu => writesCanonical_uuid fun _ _ => ⟨trivial, hu, h⟩
    | inventory =>
      exact writesCanonical_uuid fun u hu => writesCanonical_nullable fun _ => ⟨trivial, hu, h⟩
  | paymentOfOrder id =>
    exact writesCanonical_uuid fun u hu => writesCanonical_uuid fun _ _ => ⟨trivial, hu, h⟩
  | sagaInstance id => exact writesCanonical_uuid fun u _ => ⟨trivial, trivial, h⟩

theorem writesCanonical_tx (t : DbTx α) : WritesCanonical (Columns.tx t) := by
  induction t with
  | pure a => trivial
  | throw e => trivial
  | lock k next ih => exact writesCanonical_lock ih
  | put k row next ih => exact writesCanonical_put ih

theorem writesCanonical_handler (id : Option String) (p : Handler α) :
    (Columns.handler id p).Respects (fun _ => True) (fun k _ => k.Canonical) (fun _ _ => True)
      fun _ => True := by
  induction p with
  | pure a => trivial
  | throw e => trivial
  | read next ih =>
    unfold Columns.handler
    intro db _
    simp only
    split
    · exact ih _
    · trivial
  | tx body next ih => exact ⟨writesCanonical_tx body, fun r => ih r⟩
  | act a next ih => exact fun r _ => ih r

/-- **One spelling.**  In every run the UUID columns hold ids in one spelling. -/
theorem canonicalKeys {s : State} {G : Guard} (h : Reach columnSystem G s) :
    Store.All (fun k _ => k.Canonical) s.shared.db := by
  refine h.all (fun s hs k row hrow => ?_) (fun _ t _ => writesCanonical_handler _ _)
    fun _ _ _ _ _ => trivial
  by_cases hk : k.Beside
  · cases k with
    | stockLevel sku => trivial
    | sagaInstance id => trivial
    | _ => exact hk.elim
  · nomatch (hs.1 k hk).symm.trans hrow

/-- One who spells the UUID `u` as `id` finds its rows. -/
theorem row_spelledAs {db : Db} (hkeys : Store.All (fun k _ => k.Canonical) db) {id : String}
    {u : Uuid} (hu : uuidIn id = some u) :
    Store.row (db.map (Columns.spelledAs u id)) (.paymentOfOrder id) =
      Store.row db (.paymentOfOrder u) ∧
    Store.row (db.map (Columns.spelledAs u id)) (.projection .inventory id) =
      Store.row db (.projection .inventory u) := by
  induction db with
  | nil => exact ⟨rfl, rfl⟩
  | cons entry db ih =>
    obtain ⟨k, row⟩ := entry
    have hk : k.Canonical := hkeys k row (Store.row_cons_self db k row)
    obtain ⟨hindex, hreserved⟩ := ih fun k' row' hrow' => by
      by_cases hk' : k' = k
      · exact hk' ▸ hk
      · exact hkeys k' row' ((Store.row_cons_ne db row hk').trans hrow')
    -- another UUID is not spelled so
    have hother : ∀ o : Uuid, Canonical o → o ≠ u → o ≠ id := by
      rintro o ho hne rfl
      exact hne (Option.some.inj (ho.symm.trans hu))
    rw [List.map_cons]
    match k, row, hk with
    | .paymentOfOrder o, row, hk =>
      have hkey : (Columns.spelledAs u id ⟨.paymentOfOrder o, row⟩).1 ≠ .projection .inventory id := by
        show (if o = u then _ else _ : Sigma Row).1 ≠ _
        split <;> simp
      refine ⟨?_, (Store.row_cons_ne _ _ hkey.symm).trans
        (hreserved.trans (Store.row_cons_ne db row (by simp)).symm)⟩
      by_cases ho : o = u
      · subst ho
        rw [show Columns.spelledAs o id ⟨.paymentOfOrder o, row⟩ = _ from if_pos rfl,
          Store.row_cons_self, Store.row_cons_self]
      · simp only [Columns.spelledAs, if_neg ho]
        rw [Store.row_cons_ne _ _ (by simpa using (hother o hk ho).symm),
          Store.row_cons_ne _ _ (by simpa using Ne.symm ho)]
        exact hindex
    | .projection .inventory o, row, hk =>
      have hkey : (Columns.spelledAs u id ⟨.projection .inventory o, row⟩).1 ≠ .paymentOfOrder id := by
        show (if o = u then _ else _ : Sigma Row).1 ≠ _
        split <;> simp
      refine ⟨(Store.row_cons_ne _ _ hkey.symm).trans
        (hindex.trans (Store.row_cons_ne db row (by simp)).symm), ?_⟩
      by_cases ho : o = u
      · subst ho
        rw [show Columns.spelledAs o id ⟨.projection .inventory o, row⟩ = _ from if_pos rfl,
          Store.row_cons_self, Store.row_cons_self]
      · simp only [Columns.spelledAs, if_neg ho]
        rw [Store.row_cons_ne _ _ (by simpa using (hother o hk ho).symm),
          Store.row_cons_ne _ _ (by simpa using Ne.symm ho)]
        exact hreserved
    | .projection .order o, row, _ | .projection .payment o, row, _ | .outbox svc o, row, _
    | .stockLevel sku, row, _ | .eventStore svc o n, row, _ | .sagaInstance o, row, _ =>
      simp only [Columns.spelledAs]
      exact ⟨(Store.row_cons_ne _ _ (by simp)).trans
          (hindex.trans (Store.row_cons_ne db row (by simp)).symm),
        (Store.row_cons_ne _ _ (by simp)).trans
          (hreserved.trans (Store.row_cons_ne db row (by simp)).symm)⟩

/-- **A query finds the row of its UUID**, however it spells it. -/
theorem select_finds {s : State} {G : Guard} (h : Reach columnSystem G s) {id : String} {u : Uuid}
    (hu : uuidIn id = some u) : ∃ db, Columns.select (some id) s.shared.db = .ok db ∧
      Store.row db (.paymentOfOrder id) = Store.row s.shared.db (.paymentOfOrder u) ∧
      Store.row db (.projection .inventory id) =
        Store.row s.shared.db (.projection .inventory u) := by
  refine ⟨s.shared.db.map (Columns.spelledAs u id), ?_, row_spelledAs (canonicalKeys h) hu⟩
  unfold Columns.select
  simp [hu]

end Canonical

/-! ## Ids that no column respells -/

/-- A UUID column takes the string as it is spelled, or not at all. -/
def Spelled (id : String) : Prop := ∀ u, uuidIn id = some u → u = id

instance (id : String) : Decidable (Spelled id) :=
  decidable_of_iff ((uuidIn id).all (· = id) = true) (by simp [Spelled, Option.all_eq_true])

theorem Canonical.spelled {id : Uuid} (h : Canonical id) : Spelled id :=
  fun _ hu => Option.some.inj (hu.symm.trans h)

def Key.Spelled : Key → Prop
  | .stockLevel _ | .eventStore _ _ _ => True
  | .outbox _ id | .projection _ id | .paymentOfOrder id | .sagaInstance id => Saganova.Spelled id

/-- The ids that an event brings into its aggregate's projection. -/
def EventSpelled : (svc : Service) → svc.Event → Prop
  | .order, .orderCreated p => Spelled p.customerId
  | .order, .orderConfirmed p => Spelled p.paymentId
  | .order, .orderCancelled _ => True
  | .payment, .paymentAuthorized p => Spelled p.orderId
  | .payment, .paymentDeclined p => Spelled p.orderId
  | .payment, .paymentRefunded _ => True
  | .inventory, .inventoryReserved p => Spelled p.reservationId
  | .inventory, .inventoryReservationFailed _ => True
  | .inventory, .inventoryReleased _ => True

/-- The ids of a state that its projection has in UUID columns. -/
def StateSpelled : (svc : Service) → svc.AggregateState → Prop
  | .order, (state : OrderState) =>
    Spelled state.customerId ∧ ∀ id, state.paymentId = some id → Spelled id
  | .payment, (state : PaymentState) => Spelled state.orderId
  | .inventory, (state : StockAggregateState) => ∀ id, state.reservationId = some id → Spelled id

def RowSpelled : (k : Key) → Row k → Prop
  | .eventStore svc _ _, (row : EventStoreRow svc) => EventSpelled svc row.event
  | .projection .order _, (row : OrderProjectionRow) =>
    Spelled row.customerId ∧ ∀ id, row.paymentId = some id → Spelled id
  | .projection .payment _, (row : PaymentProjectionRow) => Spelled row.orderId
  | .projection .inventory _, (row : ReservationProjectionRow) =>
    ∀ id, row.reservationId = some id → Spelled id
  | .paymentOfOrder _, (paymentId : Uuid) => Spelled paymentId
  | .stockLevel _, _ | .outbox _ _, _ | .sagaInstance _, _ => True

/-! ### Their statements -/

section Statements

variable {α : Type} {db w : Db}

/-- What a body comes to over the columns: the same, or an error of the database's own. -/
def SameUnlessFault (r r' : Except Err α) : Prop := r = r' ∨ ∃ e, databaseFault e ∧ r = .error e

theorem sameUnlessFault_uuid {id : String} (h : Spelled id) {next : Uuid → DbTx α}
    {r : Except Err (α × Db)} (hnext : SameUnlessFault ((next id).exec db w) r) :
    SameUnlessFault ((Columns.uuid id next).exec db w) r := by
  unfold Columns.uuid
  split
  · rename_i u hu
    obtain rfl := h u hu
    exact hnext
  · exact .inr ⟨_, ⟨_, rfl⟩, rfl⟩

theorem sameUnlessFault_nullable {id : Option String} (h : ∀ i, id = some i → Spelled i)
    {next : Option Uuid → DbTx α} {r : Except Err (α × Db)}
    (hnext : SameUnlessFault ((next id).exec db w) r) :
    SameUnlessFault ((Columns.nullable id next).exec db w) r := by
  cases id with
  | none => exact hnext
  | some i => exact sameUnlessFault_uuid (h i rfl) hnext

theorem exec_columns_lock {k : Key} (hk : k.Spelled) {next : Option (Row k) → DbTx α}
    {r : Except Err (α × Db)} (h : SameUnlessFault ((Tx.lock k next).exec db w) r) :
    SameUnlessFault ((Columns.lock k next).exec db w) r := by
  cases k with
  | stockLevel sku => exact h
  | eventStore svc id n => exact h
  | outbox svc id => exact sameUnlessFault_uuid hk h
  | projection svc id => exact sameUnlessFault_uuid hk h
  | paymentOfOrder id => exact sameUnlessFault_uuid hk h
  | sagaInstance id => exact sameUnlessFault_uuid hk h

theorem exec_columns_put {k : Key} (hk : k.Spelled) {row : Row k} (hrow : RowSpelled k row)
    {next : DbTx α} {r : Except Err (α × Db)}
    (h : SameUnlessFault ((Tx.put k row next).exec db w) r) :
    SameUnlessFault ((Columns.put k row next).exec db w) r := by
  cases k with
  | stockLevel sku => exact h
  | eventStore svc id n => exact h
  | outbox svc id => exact sameUnlessFault_uuid hk h
  | projection svc id =>
    cases svc with
    | order =>
      exact sameUnlessFault_uuid hk
        (sameUnlessFault_uuid hrow.1 (sameUnlessFault_nullable hrow.2 h))
    | payment => exact sameUnlessFault_uuid hk (sameUnlessFault_uuid hrow h)
    | inventory => exact sameUnlessFault_uuid hk (sameUnlessFault_nullable hrow h)
  | paymentOfOrder id => exact sameUnlessFault_uuid hk (sameUnlessFault_uuid hrow h)
  | sagaInstance id => exact sameUnlessFault_uuid hk h

/-- **A body whose ids no column respells.** -/
theorem exec_columns {t : DbTx α} (ht : t.Respects Key.Spelled RowSpelled)
    (hdb : Store.All RowSpelled (w ++ db)) :
    SameUnlessFault ((Columns.tx t).exec db w) (t.exec db w) := by
  induction t generalizing w with
  | pure a => exact .inl rfl
  | throw e => exact .inl rfl
  | lock k next ih => exact exec_columns_lock ht.1 (ih _ (ht.2 _ (hdb k)) hdb)
  | put k row next ih => exact exec_columns_put ht.1 ht.2.1 (ih ht.2.2 (hdb.cons ht.2.1))

theorem spelledAs_self (id : Uuid) (entry : Sigma Row) : Columns.spelledAs id id entry = entry := by
  unfold Columns.spelledAs
  split
  · split
    · rename_i h
      rw [h]
    · rfl
  · split
    · rename_i h
      rw [h]
    · rfl
  · rfl

/-- A query that succeeds sees the rows as they are. -/
theorem select_spelled {id : Option String} (h : ∀ i, id = some i → Spelled i) {db' : Db}
    (hselect : Columns.select id db = .ok db') : db' = db := by
  cases id with
  | none => exact (Except.ok.inj hselect).symm
  | some i =>
    unfold Columns.select at hselect
    simp only at hselect
    split at hselect
    · rename_i u hu
      obtain rfl := h i rfl u hu
      obtain rfl := Except.ok.inj hselect
      rw [List.map_congr_left fun entry _ => spelledAs_self u entry, List.map_id']
    · cases hselect

/-- **A handler whose ids no column respells** follows itself. -/
theorem follows_columns {Q : α → Prop} {id : Option String} (hid : ∀ i, id = some i → Spelled i)
    {p : Handler α} (hp : p.Respects Key.Spelled RowSpelled Drawn Q) :
    (Columns.handler id p).Follows (Store.All RowSpelled) databaseFault Drawn p := by
  induction p with
  | pure a => exact .pure a
  | throw e => exact .throw e _
  | read next ih =>
    unfold Columns.handler
    refine .read fun db hdb => ?_
    split
    · rename_i db' hselect
      rw [select_spelled hid hselect]
      exact ih db (hp db hdb)
    · exact .throw _ _
  | tx body next ih =>
    have hsame : ∀ db : Db, Store.All RowSpelled db →
        SameUnlessFault ((Columns.tx body).exec db []) (body.exec db []) :=
      fun db hdb => exec_columns hp.1 hdb
    refine .tx (fun db w hdb hexec => ?_) (fun db e hdb hexec => ?_) fun r => ih r (hp.2 r)
    · obtain heq | ⟨e, -, heq⟩ := hsame db hdb
      · rw [heq] at hexec
        exact ⟨hexec, hp.1.exec (w := []) hdb hexec⟩
      · cases heq.symm.trans hexec
    · obtain heq | ⟨e', hfault, heq⟩ := hsame db hdb
      · exact .inr (heq.symm.trans hexec)
      · cases heq.symm.trans hexec
        exact .inl hfault
  | act a next ih => exact .act fun r hr => ih r (hp r hr)

end Statements

/-! ### Aggregates -/

structure AggregateSpelled (svc : Service) (a : svc.Aggregate) : Prop where
  id : Spelled a.id
  state : StateSpelled svc a.state
  events : ∀ e ∈ a.uncommittedEvents, EventSpelled svc e.event

section Aggregate

variable {svc : Service}

theorem spelled_empty : Spelled "" := by decide

theorem stateSpelled_blank (svc : Service) : StateSpelled svc svc.blankState :=
  match svc with
  | .order => ⟨spelled_empty, fun _ h => nomatch h⟩
  | .payment => spelled_empty
  | .inventory => fun _ h => nomatch h

theorem stateSpelled_when {state : svc.AggregateState} {event : svc.Event}
    (hstate : StateSpelled svc state) (hevent : EventSpelled svc event) :
    StateSpelled svc (svc.when state event) := by
  match svc, event with
  | .order, .orderCreated p => exact ⟨hevent, fun _ h => nomatch h⟩
  | .order, .orderConfirmed p => exact ⟨hstate.1, fun _ h => Option.some.inj h ▸ hevent⟩
  | .order, .orderCancelled p => exact hstate
  | .payment, .paymentAuthorized p => exact hevent
  | .payment, .paymentDeclined p => exact hevent
  | .payment, .paymentRefunded p => exact hstate
  | .inventory, .inventoryReserved p => exact fun _ h => Option.some.inj h ▸ hevent
  | .inventory, .inventoryReservationFailed p => exact hstate
  | .inventory, .inventoryReleased p => exact hstate

theorem aggregateSpelled_blank (svc : Service) {id : String} (hid : Spelled id) :
    AggregateSpelled svc (svc.blank id) where
  id := hid
  state := stateSpelled_blank svc
  events _ h := nomatch h

theorem AggregateSpelled.apply {a : svc.Aggregate} (h : AggregateSpelled svc a) {event : svc.Event}
    (hevent : EventSpelled svc event) (time : Time) :
    AggregateSpelled svc (a.apply svc.when event time) where
  id := h.id
  state := stateSpelled_when h.state hevent
  events e he := by
    obtain he | he := List.mem_append.mp he
    · exact h.events e he
    · cases List.mem_singleton.mp he
      exact hevent

/-- A loaded aggregate has the ids of its stored events. -/
theorem aggregateSpelled_loaded {db : Db} (hdb : Store.All RowSpelled db) {id : String}
    (hid : Spelled id) {a : svc.Aggregate}
    (h : hydrateFrom svc id (loadStream svc db id) = some a) : AggregateSpelled svc a := by
  have hevents : ∀ e ∈ loadStream svc db id, EventSpelled svc e.event := by
    intro e he
    obtain ⟨n, -, hstored⟩ := List.mem_filterMap.mp he
    obtain ⟨row, hrow, rfl⟩ := Option.map_eq_some_iff.mp hstored
    exact hdb (.eventStore svc id n) row hrow
  have hfold : ∀ (history : List (StoredEvent svc.Event)) (state : svc.AggregateState),
      (∀ e ∈ history, EventSpelled svc e.event) → StateSpelled svc state →
      StateSpelled svc ((history.map (·.event)).foldl svc.when state) := by
    intro history
    induction history with
    | nil => exact fun state _ hstate => hstate
    | cons e history ih =>
      exact fun state hall hstate => ih _ (fun e' he' => hall e' (List.mem_cons_of_mem _ he'))
        (stateSpelled_when hstate (hall e List.mem_cons_self))
  unfold hydrateFrom at h
  split at h
  · cases h
  · obtain rfl := Option.some.inj h
    refine ⟨?_, ?_, fun e he => ?_⟩
    · rw [AggregateRoot.hydrate_id]
      exact hid
    · rw [AggregateRoot.hydrate_state]
      exact hfold _ _ hevents (stateSpelled_blank svc)
    · rw [AggregateRoot.hydrate_uncommittedEvents] at he
      nomatch he

end Aggregate

/-! ### Transactions -/

/-- A body that names and writes ids that no column respells. -/
abbrev TxSpelled {α : Type} (t : DbTx α) : Prop := t.Respects Key.Spelled RowSpelled

section Transactions

variable {svc : Service}

theorem txSpelled_insert {k : Key} {row : Row k} (hk : k.Spelled) (hrow : RowSpelled k row) :
    TxSpelled (insert k row) := by
  refine ⟨hk, fun r _ => ?_⟩
  cases r with
  | none => exact ⟨hk, hrow, trivial⟩
  | some _ => trivial

theorem txSpelled_upsert {k : Key} {ins : DbTx Unit} {update : Row k → Row k} (hk : k.Spelled)
    (hins : TxSpelled ins) (hupdate : ∀ old, RowSpelled k old → RowSpelled k (update old)) :
    TxSpelled (upsert k ins update) := by
  refine ⟨hk, fun r hr => ?_⟩
  cases r with
  | none => exact hins
  | some old => exact ⟨hk, hupdate old (hr old rfl), trivial⟩

theorem txSpelled_integer (q : Num) : TxSpelled (integer q) := by
  unfold integer
  split <;> trivial

/-- A value that is absent leaves the column as it was. -/
theorem spelled_orElse {a b : Option Uuid} (ha : ∀ id, a = some id → Spelled id)
    (hb : ∀ id, b = some id → Spelled id) : ∀ id, (a <|> b) = some id → Spelled id := by
  intro id h
  cases a with
  | none => exact hb id h
  | some _ => exact ha id h

theorem txSpelled_projection {a : svc.Aggregate} (ha : AggregateSpelled svc a) :
    TxSpelled (svc.upsertWithinTransaction a) := by
  match svc with
  | .order =>
    refine (txSpelled_integer _).bind fun _ => txSpelled_upsert ha.id ?_ fun old hold => ?_
    · exact txSpelled_insert ha.id ha.state
    · exact ⟨ha.state.1, spelled_orElse ha.state.2 hold.2⟩
  | .payment =>
    refine (txSpelled_integer _).bind fun _ => txSpelled_upsert ha.id ?_ fun old _ => ha.state
    refine Tx.Respects.bind ?_ fun _ => txSpelled_insert ha.id ha.state
    exact txSpelled_insert (k := .paymentOfOrder a.state.orderId) ha.state ha.id
  | .inventory =>
    refine txSpelled_upsert ha.id (txSpelled_insert ha.id ha.state) fun old hold => ?_
    exact spelled_orElse ha.state hold

theorem txSpelled_appendEvents (aggregateId correlationId : String) {ids : ℕ → Uuid}
    (hids : ∀ n, Canonical (ids n)) (n : ℕ) (events : List (UncommittedEvent svc.Event))
    (hevents : ∀ e ∈ events, EventSpelled svc e.event) :
    TxSpelled (appendEvents svc aggregateId correlationId ids n events) := by
  induction events generalizing n with
  | nil => trivial
  | cons e events ih =>
    have hevent : TxSpelled (insert (.eventStore svc aggregateId (n + 1))
        { aggregateType := svc.aggregateType, event := e.event, occurredAt := e.occurredAt
          correlationId }) := txSpelled_insert trivial (hevents e List.mem_cons_self)
    refine hevent.bind fun _ => Tx.Respects.bind ?_ fun _ =>
      ih _ fun e' he' => hevents e' (List.mem_cons_of_mem _ he')
    exact txSpelled_insert (hids _).spelled trivial

theorem txSpelled_persist {a : svc.Aggregate} (ha : AggregateSpelled svc a) (correlationId : String)
    {ids : ℕ → Uuid} (hids : ∀ n, Canonical (ids n)) :
    TxSpelled (persist svc a correlationId ids) :=
  (txSpelled_appendEvents _ _ hids _ _ ha.events).bind fun _ => txSpelled_projection ha

theorem txSpelled_saveWithinTransaction {a : StockAggregate} (ha : AggregateSpelled .inventory a)
    (correlationId : String) {ids : ℕ → Uuid} (hids : ∀ n, Canonical (ids n)) :
    TxSpelled (InventoryEventStoreRepository.saveWithinTransaction a correlationId ids) := by
  unfold InventoryEventStoreRepository.saveWithinTransaction
  split
  · trivial
  · exact (txSpelled_persist ha correlationId hids).mapError

open StockRepository

theorem txSpelled_updateReserved (sku : String) (f : ℤ → Num) :
    TxSpelled (updateReserved sku f) := by
  refine ⟨trivial, fun r _ => ?_⟩
  cases r with
  | none => trivial
  | some row =>
    simp only
    split
    · exact ⟨trivial, trivial, trivial⟩
    · trivial

theorem txSpelled_checkLine (line : ReservationLine) : TxSpelled (checkLine line) := by
  refine ⟨trivial, fun r _ => ?_⟩
  cases r with
  | none => trivial
  | some row =>
    simp only
    split <;> trivial

theorem txSpelled_checkLines (lines : List ReservationLine) : TxSpelled (checkLines lines) := by
  induction lines with
  | nil => trivial
  | cons line lines ih => exact (txSpelled_checkLine line).bind fun _ => ih

theorem txSpelled_incrementLines (lines : List ReservationLine) :
    TxSpelled (incrementLines lines) := by
  induction lines with
  | nil => trivial
  | cons line lines ih => exact (txSpelled_updateReserved _ _).bind fun _ => ih

theorem txSpelled_releaseLines (lines : List ReservationLine) :
    TxSpelled (releaseLinesWithinTransaction lines) := by
  induction lines with
  | nil => trivial
  | cons line lines ih => exact (txSpelled_updateReserved _ _).bind fun _ => ih

end Transactions

/-! ### Command handlers -/

/-- A handler that names and writes ids that no column respells. -/
abbrev HandlerSpelled {α : Type} (p : Handler α) (Q : α → Prop) : Prop :=
  p.Respects Key.Spelled RowSpelled Drawn Q

section Handlers

theorem handlerSpelled_field {α : Type} (o : Option α) :
    HandlerSpelled (field o) fun a => o = some a := by
  cases o with
  | none => trivial
  | some a => exact rfl

theorem handlerSpelled_save {svc : Service} {a : svc.Aggregate} (ha : AggregateSpelled svc a)
    (correlationId : String) : HandlerSpelled (save svc a correlationId) fun _ => True := by
  unfold save
  split
  · trivial
  · rw [randomUUIDs_bind]
    intro ids hids
    refine Proc.Respects.bind (Q := fun _ => True) ?_ fun _ _ => trivial
    exact (Proc.respects_transaction (txSpelled_persist ha correlationId hids)).tryCatch
      fun _ => trivial

theorem handlerSpelled_saveReservation {a : StockAggregate} (ha : AggregateSpelled .inventory a)
    (correlationId : String) :
    HandlerSpelled (InventoryEventStoreRepository.save a correlationId) fun _ => True := by
  unfold InventoryEventStoreRepository.save
  rw [randomUUIDs_bind]
  intro ids hids
  refine Proc.Respects.bind (Q := fun _ => True) ?_ fun _ _ => trivial
  exact Proc.respects_transaction (txSpelled_saveWithinTransaction ha correlationId hids)

theorem handlerSpelled_createOrder {command : CreateOrderCommand} (hid : Spelled command.orderId)
    (hcustomer : Spelled command.customerId) :
    HandlerSpelled (CreateOrderHandler.execute command) fun _ => True := by
  intro time _
  have ha : AggregateSpelled .order
      (OrderAggregate.createNew command.orderId command.customerId command.items time) := by
    refine (aggregateSpelled_blank .order hid).apply ?_ time
    exact hcustomer
  refine Proc.Respects.tryCatch ((handlerSpelled_save ha _).bind fun _ _ => trivial) fun e => ?_
  split <;> trivial

/-- What `confirm` and `cancel` are followed by. -/
theorem handlerSpelled_finish {result : Except Err OrderAggregate} {correlationId : String}
    (h : ∀ a, result = .ok a → AggregateSpelled .order a) :
    HandlerSpelled (match result with
      | .error (.orderAlreadyFinalized _ _) => pure ()
      | .error err => throw err
      | .ok aggregate => do let _ ← OrderEventStoreRepository.save aggregate correlationId)
      fun _ => True := by
  split
  · trivial
  · trivial
  · rename_i a
    exact (handlerSpelled_save (h a rfl) correlationId).bind fun _ _ => trivial

theorem handlerSpelled_confirmOrder {command : ConfirmOrderCommand} (hid : Spelled command.orderId)
    (hpayment : Spelled command.paymentId) :
    HandlerSpelled (ConfirmOrderHandler.execute command) fun _ => True := by
  unfold ConfirmOrderHandler.execute OrderEventStoreRepository.loadAggregate loadAggregate
  rw [Proc.select_bind]
  intro db hdb
  simp only
  split
  · trivial
  · rename_i a hload
    refine fun time _ => handlerSpelled_finish fun a' ha' => ?_
    unfold OrderAggregate.confirm at ha'
    split at ha'
    · cases ha'
    · cases ha'
      refine (aggregateSpelled_loaded hdb hid hload).apply ?_ time
      exact hpayment

theorem handlerSpelled_cancelOrder {command : CancelOrderCommand} (hid : Spelled command.orderId) :
    HandlerSpelled (CancelOrderHandler.execute command) fun _ => True := by
  unfold CancelOrderHandler.execute OrderEventStoreRepository.loadAggregate loadAggregate
  rw [Proc.select_bind]
  intro db hdb
  simp only
  split
  · trivial
  · rename_i a hload
    refine fun time _ => handlerSpelled_finish fun a' ha' => ?_
    unfold OrderAggregate.cancel at ha'
    split at ha'
    · cases ha'
    · cases ha'
      refine (aggregateSpelled_loaded hdb hid hload).apply ?_ time
      trivial

theorem aggregateSpelled_payment {command : AuthorizePaymentCommand} (hid : Spelled command.orderId)
    {paymentId : Uuid} (hpayment : Canonical paymentId) (result : AuthorizeResult) (time : Time) :
    AggregateSpelled .payment (AuthorizePaymentHandler.aggregate command paymentId result time) := by
  unfold AuthorizePaymentHandler.aggregate
  split
  · refine (aggregateSpelled_blank .payment hpayment.spelled).apply ?_ time
    exact hid
  · refine (aggregateSpelled_blank .payment hpayment.spelled).apply ?_ time
    exact hid

theorem handlerSpelled_authorizePayment {command : AuthorizePaymentCommand}
    (hid : Spelled command.orderId) :
    HandlerSpelled (AuthorizePaymentHandler.execute command) fun _ => True := by
  unfold AuthorizePaymentHandler.execute PaymentProjectionRepository.findByOrderId
  rw [Proc.select_bind]
  intro db _
  simp only
  split
  · trivial
  · refine fun paymentId hpayment reply _ => ?_
    refine Proc.Respects.bind (Proc.respects_ofExcept fun _ _ => trivial) fun result _ time _ => ?_
    exact (handlerSpelled_save (aggregateSpelled_payment hid hpayment result time) _).bind
      fun _ _ => trivial

theorem handlerSpelled_refundPayment {command : RefundPaymentCommand}
    (hid : Spelled command.paymentId) :
    HandlerSpelled (RefundPaymentHandler.execute command) fun _ => True := by
  unfold RefundPaymentHandler.execute PaymentEventStoreRepository.loadAggregate loadAggregate
  rw [Proc.select_bind]
  intro db hdb
  simp only
  split
  · trivial
  · rename_i a hload
    have ha := aggregateSpelled_loaded hdb hid hload
    split
    · trivial
    · refine Proc.Respects.bind
        (Q := fun refunded => ∀ a, refunded = some a → AggregateSpelled .payment a) ?_ fun r hr => ?_
      · refine Proc.Respects.tryCatch (fun reply _ => ?_) fun e => ?_
        · refine Proc.Respects.bind (Proc.respects_ofExcept fun _ _ => trivial) fun _ _ time _ => ?_
          refine Proc.Respects.bind (Q := AggregateSpelled .payment)
            (Proc.respects_ofExcept fun a' ha' => ?_) fun a' ha' b hb => Option.some.inj hb ▸ ha'
          unfold PaymentAggregate.refund at ha'
          split at ha'
          · cases ha'
          · cases ha'
            refine ha.apply ?_ time
            trivial
        · split
          · exact fun _ h => nomatch h
          · trivial
      · cases r with
        | none => trivial
        | some a' => exact (handlerSpelled_save (hr a' rfl) _).bind fun _ _ => trivial

theorem handlerSpelled_reserveStock {command : ReserveStockCommand} (hid : Spelled command.orderId) :
    HandlerSpelled (ReserveStockHandler.execute command) fun _ => True := by
  unfold ReserveStockHandler.execute ReservationProjectionRepository.findByOrderId
  rw [Proc.select_bind]
  intro db _
  simp only
  split
  · trivial
  · refine fun reservationId hreservation time _ ids hids => Proc.Respects.tryCatch ?_ fun e => ?_
    · have ha : AggregateSpelled .inventory
          (StockAggregate.reserved command.orderId reservationId command.lines time) := by
        refine (aggregateSpelled_blank .inventory hid).apply ?_ time
        exact hreservation.spelled
      refine Proc.respects_transaction (Tx.Respects.bind ?_ fun _ =>
        txSpelled_saveWithinTransaction ha _ hids)
      exact (txSpelled_checkLines _).bind fun _ => txSpelled_incrementLines _
    · split
      · rename_i sku reason
        intro time' _
        have ha : AggregateSpelled .inventory
            (StockAggregate.failed command.orderId sku reason time') := by
          refine (aggregateSpelled_blank .inventory hid).apply ?_ time'
          trivial
        exact (handlerSpelled_saveReservation ha _).bind fun _ _ => trivial
      · trivial

theorem handlerSpelled_releaseInventory {command : ReleaseInventoryCommand}
    (hid : Spelled command.orderId) :
    HandlerSpelled (ReleaseInventoryHandler.execute command) fun _ => True := by
  unfold ReleaseInventoryHandler.execute InventoryEventStoreRepository.loadAggregate loadAggregate
  rw [Proc.select_bind]
  intro db hdb
  simp only
  split
  · trivial
  · rename_i a hload
    have ha := aggregateSpelled_loaded hdb hid hload
    refine fun time _ ids hids => Proc.Respects.tryCatch ?_ fun e => ?_
    · refine Proc.respects_transaction ((txSpelled_releaseLines _).bind fun _ => ?_)
      split
      · trivial
      · rename_i a' hrelease
        refine txSpelled_saveWithinTransaction ?_ _ hids
        unfold StockAggregate.release at hrelease
        split at hrelease
        · cases hrelease
        · cases hrelease
          refine ha.apply ?_ time
          trivial
    · split <;> trivial

end Handlers

/-! ### Commands -/

/-- The ids of a command that reach a UUID column. -/
def CommandEnvelope.columnIds (envelope : CommandEnvelope) : List Uuid :=
  let p := envelope.payload
  match envelope.type with
  | .createOrder => p.orderId.toList ++ p.customerId.toList
  | .confirmOrder => p.orderId.toList ++ p.paymentId.toList
  | .refundPayment => p.paymentId.toList
  | .cancelOrder | .authorizePayment | .reserveStock | .releaseInventory => p.orderId.toList
  -- its handlers ignore it
  | .other _ => []

/-- No UUID column respells an id of the command. -/
def SpelledCommand (envelope : CommandEnvelope) : Prop := ∀ id ∈ envelope.columnIds, Spelled id

instance (envelope : CommandEnvelope) : Decidable (SpelledCommand envelope) :=
  inferInstanceAs (Decidable (∀ _ ∈ _, _))

section Commands

variable {envelope : CommandEnvelope} (h : SpelledCommand envelope)

include h in
theorem handlerSpelled_order : HandlerSpelled (OrderKafkaConsumer.dispatch envelope) fun _ => True := by
  obtain ⟨id, type, version, correlationId, issuedAt, payload⟩ := envelope
  unfold OrderKafkaConsumer.dispatch
  cases type with
  | createOrder =>
    have hids : ∀ id ∈ payload.orderId.toList ++ payload.customerId.toList, Spelled id := h
    refine (handlerSpelled_field _).bind fun orderId hid =>
      (handlerSpelled_field _).bind fun customerId hcustomer =>
      (handlerSpelled_field _).bind fun items _ => ?_
    exact handlerSpelled_createOrder (hids _ (List.mem_append_left _ (Option.mem_toList.mpr hid)))
      (hids _ (List.mem_append_right _ (Option.mem_toList.mpr hcustomer)))
  | confirmOrder =>
    have hids : ∀ id ∈ payload.orderId.toList ++ payload.paymentId.toList, Spelled id := h
    refine (handlerSpelled_field _).bind fun orderId hid =>
      (handlerSpelled_field _).bind fun paymentId hpayment => ?_
    exact handlerSpelled_confirmOrder (hids _ (List.mem_append_left _ (Option.mem_toList.mpr hid)))
      (hids _ (List.mem_append_right _ (Option.mem_toList.mpr hpayment)))
  | cancelOrder =>
    have hids : ∀ id ∈ payload.orderId.toList, Spelled id := h
    refine (handlerSpelled_field _).bind fun orderId hid =>
      (handlerSpelled_field _).bind fun reason _ => ?_
    exact handlerSpelled_cancelOrder (hids _ (Option.mem_toList.mpr hid))
  | _ => trivial

include h in
theorem handlerSpelled_payment :
    HandlerSpelled (PaymentKafkaConsumer.dispatch envelope) fun _ => True := by
  obtain ⟨id, type, version, correlationId, issuedAt, payload⟩ := envelope
  unfold PaymentKafkaConsumer.dispatch
  cases type with
  | authorizePayment =>
    have hids : ∀ id ∈ payload.orderId.toList, Spelled id := h
    refine (handlerSpelled_field _).bind fun orderId hid =>
      (handlerSpelled_field _).bind fun customerId _ =>
      (handlerSpelled_field _).bind fun amountCents _ => ?_
    exact handlerSpelled_authorizePayment (hids _ (Option.mem_toList.mpr hid))
  | refundPayment =>
    have hids : ∀ id ∈ payload.paymentId.toList, Spelled id := h
    refine (handlerSpelled_field _).bind fun orderId _ =>
      (handlerSpelled_field _).bind fun paymentId hpayment =>
      (handlerSpelled_field _).bind fun amountCents _ => ?_
    exact handlerSpelled_refundPayment (hids _ (Option.mem_toList.mpr hpayment))
  | _ => trivial

include h in
theorem handlerSpelled_inventory :
    HandlerSpelled (InventoryKafkaConsumer.dispatch envelope) fun _ => True := by
  obtain ⟨id, type, version, correlationId, issuedAt, payload⟩ := envelope
  unfold InventoryKafkaConsumer.dispatch
  cases type with
  | reserveStock =>
    have hids : ∀ id ∈ payload.orderId.toList, Spelled id := h
    refine (handlerSpelled_field _).bind fun orderId hid =>
      (handlerSpelled_field _).bind fun lines _ => ?_
    exact handlerSpelled_reserveStock (hids _ (Option.mem_toList.mpr hid))
  | releaseInventory =>
    have hids : ∀ id ∈ payload.orderId.toList, Spelled id := h
    refine (handlerSpelled_field _).bind fun orderId hid =>
      (handlerSpelled_field _).bind fun reservationId _ => ?_
    exact handlerSpelled_releaseInventory (hids _ (Option.mem_toList.mpr hid))
  | _ => trivial

end Commands

theorem handlerSpelled_command {svc : Service} {record : Record CommandEnvelope}
    (h : SpelledCommand record.value) :
    HandlerSpelled (code (.command svc record)) fun _ => True := by
  have hconsumer : HandlerSpelled (consumer svc record.value) fun _ => True :=
    match svc with
    | .order => handlerSpelled_order h
    | .payment => handlerSpelled_payment h
    | .inventory => handlerSpelled_inventory h
  refine hconsumer.bind fun _ _ => ?_
  exact fun reply _ => Proc.respects_ofExcept fun _ _ => trivial

theorem spelled_queriedId {svc : Service} {record : Record CommandEnvelope}
    (h : SpelledCommand record.value) :
    ∀ id, (Task.command svc record).queriedId = some id → Spelled id := by
  intro id hid
  unfold Task.queriedId at hid
  unfold SpelledCommand CommandEnvelope.columnIds at h
  cases svc with
  | order => cases hid
  | payment =>
    simp only at hid
    split at hid
    · rename_i htype
      rw [htype] at h
      exact h id (by simp [hid])
    · cases hid
  | inventory =>
    simp only at hid
    split at hid
    · rename_i htype
      rw [htype] at h
      exact h id (by simp [hid])
    · cases hid

/-- The task is a command whose ids no UUID column respells. -/
def Task.Spelled : Task → Prop
  | .command _ record => SpelledCommand record.value
  | _ => False

theorem Task.Spelled.isCommand {t : Task} (h : t.Spelled) : ∃ svc r, t = .command svc r := by
  cases t with
  | command svc r => exact ⟨svc, r, rfl⟩
  | _ => exact h.elim

/-- A transaction commits only for such a task. -/
def SpelledCommits : Guard := fun s i c =>
  ∀ w job, c = .commit w → s.jobs i = some job → job.task.Spelled

theorem rowSpelled_fresh {db : Db} (h : Fresh db) : Store.All RowSpelled db := by
  intro k row hrow
  by_cases hk : k.Beside
  · cases k with
    | stockLevel sku => trivial
    | sagaInstance id => trivial
    | _ => exact hk.elim
  · nomatch (h k hk).symm.trans hrow

end Saganova
