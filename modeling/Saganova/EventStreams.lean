import Mathlib.Data.List.Indexes
import Mathlib.Data.List.Induction
import Saganova.EventStore

/-!
# Streams, outboxes and projections of a database

What the three event-sourced services store, as lists: the stream of an
aggregate is the list of its events (`HasStream`), each with its outbox row
(`Outboxed`), and the projection is what replaying the stream gives
(`Projected`).  `Consistent` says this of every aggregate.

A `Saved` step appends one event to one stream, with its outbox row and the
projection after it; it keeps a database consistent (`Saved.consistent`) and
every other stream as it is.
-/

namespace Saganova

open Concurrency

/-! ## Streams -/

section Stream

variable {svc : Service} {db : Db} {id : String} {rows : List (EventStoreRow svc)}

/-- The events of the aggregate are `rows`, at the sequences 1, ..., n. -/
def HasStream (svc : Service) (db : Db) (id : String) (rows : List (EventStoreRow svc)) : Prop :=
  Store.row db (.eventStore svc id 0) = none ∧
    ∀ k, Store.row db (.eventStore svc id (k + 1)) = rows[k]?

theorem HasStream.unique {rows' : List (EventStoreRow svc)} (h : HasStream svc db id rows)
    (h' : HasStream svc db id rows') : rows = rows' :=
  List.ext_getElem? fun k => (h.2 k).symm.trans (h'.2 k)

theorem HasStream.next (h : HasStream svc db id rows) :
    Store.row db (.eventStore svc id (rows.length + 1)) = none := by
  rw [h.2, List.getElem?_eq_none_iff.mpr (Nat.le_refl _)]

/-- A stream whose next sequence is free ends there. -/
theorem HasStream.length_le {n : ℕ} (h : HasStream svc db id rows)
    (hfree : Store.row db (.eventStore svc id (n + 1)) = none) : rows.length ≤ n := by
  rw [h.2] at hfree
  exact List.getElem?_eq_none_iff.mp hfree

/-- The stored form of the k-th event. -/
def storedEvent (svc : Service) (id : String) (k : ℕ) (r : EventStoreRow svc) :
    StoredEvent svc.Event where
  aggregateId := id
  aggregateType := r.aggregateType
  sequence := k + 1
  event := r.event
  occurredAt := r.occurredAt
  correlationId := r.correlationId

theorem le_maxSequence {k : ℕ} (h : (Store.row db (.eventStore svc id k)).isSome) :
    k ≤ maxSequence db := by
  obtain ⟨v, hv⟩ := Option.isSome_iff_exists.mp h
  have hmem := Store.mem_keys_of_row hv
  clear h hv v
  unfold maxSequence
  induction db with
  | nil => cases hmem
  | cons entry db ih =>
    rw [List.map_cons, List.mem_cons] at hmem
    rw [List.foldr_cons]
    rcases hmem with hkey | hmem
    · rw [← hkey]
      exact Nat.le_max_left k _
    · have hle := ih hmem
      split
      · exact Nat.le_trans hle (Nat.le_max_right _ _)
      · exact hle

/-- A list read by index up to any bound past its end. -/
theorem filterMap_range_getElem? {α β : Type} (g : ℕ → α → β) (l : List α) (m : ℕ) :
    (List.range m).filterMap (fun k => l[k]?.map (g k)) = (l.take m).mapIdx g := by
  induction m with
  | zero => rfl
  | succ m ih =>
    rw [List.range_succ, List.filterMap_append, ih, List.take_add_one, List.mapIdx_append]
    congr 1
    cases hk : l[m]? with
    | none => simp [hk]
    | some a =>
      have hlt : m < l.length := (List.getElem?_eq_some_iff.mp hk).1
      simp [hk, Nat.min_eq_left (Nat.le_of_lt hlt)]

theorem loadStream_eq (h : HasStream svc db id rows) :
    loadStream svc db id = rows.mapIdx (storedEvent svc id) := by
  have hbound : rows.length ≤ maxSequence db := by
    rcases Nat.eq_zero_or_pos rows.length with hzero | hpos
    · omega
    · have hlast : (Store.row db (.eventStore svc id (rows.length - 1 + 1))).isSome := by
        rw [h.2, List.getElem?_eq_getElem (by omega)]
        rfl
      have hle := le_maxSequence hlast
      omega
  unfold loadStream
  rw [List.range_succ_eq_map, List.filterMap_cons, h.1, List.filterMap_map]
  calc (List.range (maxSequence db)).filterMap _
      = (List.range (maxSequence db)).filterMap
          (fun k => rows[k]?.map (storedEvent svc id k)) := by
        congr 1
        funext k
        rw [← h.2 k]
        rfl
    _ = rows.mapIdx (storedEvent svc id) := by
        rw [filterMap_range_getElem?, List.take_of_length_le hbound]

/-- The state that the events of a stream fold to. -/
def replay (svc : Service) (rows : List (EventStoreRow svc)) : svc.AggregateState :=
  (rows.map (·.event)).foldl svc.when svc.blankState

@[simp] theorem replay_nil (svc : Service) : replay svc [] = svc.blankState := rfl

@[simp] theorem replay_snoc (rows : List (EventStoreRow svc)) (r : EventStoreRow svc) :
    replay svc (rows ++ [r]) = svc.when (replay svc rows) r.event := by
  simp [replay]

/-- The aggregate that a stream is loaded as. -/
def loaded (svc : Service) (id : String) (rows : List (EventStoreRow svc)) : svc.Aggregate :=
  { id, state := replay svc rows, version := rows.length }

theorem hydrate_stored (svc : Service) (id : String) (rows : List (EventStoreRow svc)) :
    AggregateRoot.hydrate svc.when (svc.blank id) (rows.mapIdx (storedEvent svc id)) =
      loaded svc id rows := by
  induction rows using List.reverseRecOn with
  | nil => rfl
  | append_singleton rows last ih =>
    unfold AggregateRoot.hydrate at ih ⊢
    rw [List.mapIdx_append, List.foldl_append, ih]
    simp [loaded, storedEvent]

/-- Loading replays the stream. -/
theorem hydrateFrom_loadStream (h : HasStream svc db id rows) :
    hydrateFrom svc id (loadStream svc db id) =
      if rows = [] then none else some (loaded svc id rows) := by
  rw [loadStream_eq h]
  unfold hydrateFrom
  by_cases hrows : rows = []
  · simp [hrows]
  · rw [if_neg (by simpa using hrows), if_neg hrows, hydrate_stored]

end Stream

/-! ## Outbox rows and projections -/

/-- The outbox row of an event. -/
def outboxRow (svc : Service) (id : String) (r : EventStoreRow svc) : OutboxRow where
  aggregateId := id
  topic := svc.topic
  eventType := svc.eventType r.event
  payload := svc.payload r.event
  correlationId := r.correlationId
  publishedAt := none
  publishAttempts := 0

/-- `oids` are the outbox rows of the stream, one for each event in order, and
the aggregate has no others. -/
structure Outboxed (svc : Service) (db : Db) (id : String) (rows : List (EventStoreRow svc))
    (oids : List Uuid) : Prop where
  nodup : oids.Nodup
  each : List.Forall₂ (fun oid r => Store.row db (.outbox svc oid) = some (outboxRow svc id r))
    oids rows
  only : ∀ oid (row : OutboxRow), Store.row db (.outbox svc oid) = some row →
    row.aggregateId = id → oid ∈ oids

/-- The row shows the state and the version; an undefined field is NULL. -/
def Projects : (svc : Service) → svc.AggregateState → ℕ → ProjectionRow svc → Prop
  | .order, (state : OrderState), version, (row : OrderProjectionRow) =>
    row.customerId = state.customerId ∧ row.status = state.status ∧ row.items = state.items ∧
      (row.totalCents : Num) = state.totalCents ∧ row.paymentId = state.paymentId ∧
      row.cancelReason = state.cancelReason ∧ row.version = version
  | .payment, (state : PaymentState), version, (row : PaymentProjectionRow) =>
    row.orderId = state.orderId ∧ row.status = state.status ∧
      (row.amountCents : Num) = state.amountCents ∧ row.pspReference = state.pspReference ∧
      row.declineCode = state.declineCode ∧ row.reason = state.reason ∧ row.version = version
  | .inventory, (state : StockAggregateState), version, (row : ReservationProjectionRow) =>
    row.status = state.status ∧ row.reservationId = state.reservationId ∧
      row.lines = state.lines ∧ row.failedSku = state.failedSku ∧
      row.failReason = state.failReason ∧ row.version = version

/-- The aggregate has a projection row once it has events, and it shows them replayed. -/
structure Projected (svc : Service) (db : Db) (id : String) (rows : List (EventStoreRow svc)) :
    Prop where
  none_of_nil : rows = [] → Store.row db (.projection svc id) = none
  some_of_ne : rows ≠ [] → ∃ row, Store.row db (.projection svc id) = some row ∧
    Projects svc (replay svc rows) rows.length row

/-- Event store, outbox and read model agree on every aggregate, and the index
on `orderId` on every payment. -/
structure Consistent (db : Db) : Prop where
  aggregate : ∀ svc id, ∃ rows oids, HasStream svc db id rows ∧ Outboxed svc db id rows oids ∧
    Projected svc db id rows
  index : ∀ o p, Store.row db (.paymentOfOrder o) = some p ↔
    ∃ row : PaymentProjectionRow, Store.row db (.projection .payment p) = some row ∧
      row.orderId = o

theorem Consistent.stream {db : Db} (h : Consistent db) (svc : Service) (id : String) :
    ∃ rows, HasStream svc db id rows := by
  obtain ⟨rows, -, hrows, -⟩ := h.aggregate svc id
  exact ⟨rows, hrows⟩

theorem Consistent.projected {db : Db} (h : Consistent db) {svc : Service} {id : String}
    {rows : List (EventStoreRow svc)} (hrows : HasStream svc db id rows) :
    Projected svc db id rows := by
  obtain ⟨rows', -, hrows', -, hproj⟩ := h.aggregate svc id
  rwa [hrows.unique hrows']

/-! ## Saving an event -/

/-- A row that only a save of this event writes. -/
def Key.SavedWith (svc : Service) (id : String) (n : ℕ) (oid : Uuid) : Key → Prop
  | .eventStore svc' id' k => svc' = svc ∧ id' = id ∧ k = n
  | .outbox svc' oid' => svc' = svc ∧ oid' = oid
  | .projection svc' id' => svc' = svc ∧ id' = id
  | .paymentOfOrder _ => svc = .payment
  | .stockLevel _ | .sagaInstance _ => False

/-- `db'` is `db` with the event `r` appended to the stream `rows`. -/
structure Saved (svc : Service) (id : String) (rows : List (EventStoreRow svc))
    (r : EventStoreRow svc) (oid : Uuid) (db db' : Db) : Prop where
  stream : HasStream svc db id rows
  event : Store.row db' (.eventStore svc id (rows.length + 1)) = some r
  outbox_free : Store.row db (.outbox svc oid) = none
  outbox : Store.row db' (.outbox svc oid) = some (outboxRow svc id r)
  projection : ∃ row, Store.row db' (.projection svc id) = some row ∧
    Projects svc (replay svc (rows ++ [r])) (rows.length + 1) row
  /-- a payment enters the index with its first event, and stays there -/
  index : svc = .payment → ∃ row : PaymentProjectionRow,
    Store.row db' (.projection .payment id) = some row ∧
    Store.row db' (.paymentOfOrder row.orderId) = some id ∧
    (∀ o, o ≠ row.orderId → Store.row db' (.paymentOfOrder o) = Store.row db (.paymentOfOrder o)) ∧
    (rows = [] ∧ Store.row db (.paymentOfOrder row.orderId) = none ∨
      Store.row db (.paymentOfOrder row.orderId) = some id)
  frame : ∀ k, ¬ k.SavedWith svc id (rows.length + 1) oid → Store.row db' k = Store.row db k

section Saved

variable {svc : Service} {id : String} {rows : List (EventStoreRow svc)} {r : EventStoreRow svc}
  {oid : Uuid} {db db' : Db}

/-- The stream is one event longer. -/
theorem Saved.stream' (h : Saved svc id rows r oid db db') : HasStream svc db' id (rows ++ [r]) := by
  have hframe : ∀ k, k ≠ rows.length + 1 →
      Store.row db' (.eventStore svc id k) = Store.row db (.eventStore svc id k) :=
    fun k hk => h.frame _ fun hsaved => hk hsaved.2.2
  refine ⟨(hframe 0 (by omega)).trans h.stream.1, fun k => ?_⟩
  rcases Nat.lt_trichotomy k rows.length with hlt | rfl | hgt
  · rw [hframe (k + 1) (by omega), h.stream.2, List.getElem?_append_left hlt]
  · rw [h.event, List.getElem?_concat_length]
  · rw [hframe (k + 1) (by omega), h.stream.2, List.getElem?_eq_none_iff.mpr (by omega),
      List.getElem?_eq_none_iff.mpr (by rw [List.length_append, List.length_singleton]; omega)]

/-- The streams of the other aggregates stay. -/
theorem Saved.stream_ne (h : Saved svc id rows r oid db db') {svc' : Service} {id' : String}
    (hne : ¬ (svc' = svc ∧ id' = id)) {rows' : List (EventStoreRow svc')} :
    HasStream svc' db' id' rows' ↔ HasStream svc' db id' rows' := by
  have hframe : ∀ k,
      Store.row db' (.eventStore svc' id' k) = Store.row db (.eventStore svc' id' k) :=
    fun k => h.frame _ fun hsaved => hne ⟨hsaved.1, hsaved.2.1⟩
  unfold HasStream
  simp only [hframe]

theorem Saved.outbox_ne (h : Saved svc id rows r oid db db') {svc' : Service} {oid' : Uuid}
    (hne : ¬ (svc' = svc ∧ oid' = oid)) :
    Store.row db' (.outbox svc' oid') = Store.row db (.outbox svc' oid') :=
  h.frame _ hne

/-- An outbox row that was there stays. -/
theorem Saved.outbox_some (h : Saved svc id rows r oid db db') {svc' : Service} {oid' : Uuid}
    {row : OutboxRow} (hrow : Store.row db (.outbox svc' oid') = some row) :
    Store.row db' (.outbox svc' oid') = some row := by
  rw [h.outbox_ne, hrow]
  rintro ⟨rfl, rfl⟩
  rw [h.outbox_free] at hrow
  cases hrow

theorem Saved.outboxed (h : Saved svc id rows r oid db db') {oids : List Uuid}
    (ho : Outboxed svc db id rows oids) : Outboxed svc db' id (rows ++ [r]) (oids ++ [oid]) where
  nodup := by
    have hnew : oid ∉ oids := by
      intro hmem
      obtain ⟨k, hk⟩ := List.mem_iff_getElem?.mp hmem
      have hlen := ho.each.length_eq
      obtain ⟨hlt, -⟩ := List.getElem?_eq_some_iff.mp hk
      have hrow := List.forall₂_iff_get.mp ho.each |>.2 k hlt (hlen ▸ hlt)
      have hoid : oids.get ⟨k, hlt⟩ = oid := by
        rw [List.get_eq_getElem]
        exact (List.getElem?_eq_some_iff.mp hk).2
      rw [hoid, h.outbox_free] at hrow
      cases hrow
    rw [List.nodup_append]
    refine ⟨ho.nodup, List.nodup_singleton oid, fun a ha b hb => ?_⟩
    rw [List.mem_singleton] at hb
    subst hb
    exact fun heq => hnew (heq ▸ ha)
  each := List.rel_append (ho.each.imp fun _ _ hrow => h.outbox_some hrow)
    (.cons h.outbox .nil)
  only := by
    intro oid' row hrow haggregate
    by_cases heq : oid' = oid
    · exact List.mem_append_right _ (by simp [heq])
    · rw [h.outbox_ne fun hne => heq hne.2] at hrow
      exact List.mem_append_left _ (ho.only oid' row hrow haggregate)

theorem Saved.outboxed_ne (h : Saved svc id rows r oid db db') {svc' : Service} {id' : String}
    (hne : ¬ (svc' = svc ∧ id' = id)) {rows' : List (EventStoreRow svc')} {oids : List Uuid}
    (ho : Outboxed svc' db id' rows' oids) : Outboxed svc' db' id' rows' oids where
  nodup := ho.nodup
  each := ho.each.imp fun _ _ hrow => h.outbox_some hrow
  only := by
    intro oid' row hrow haggregate
    by_cases heq : svc' = svc ∧ oid' = oid
    · obtain ⟨rfl, rfl⟩ := heq
      rw [h.outbox] at hrow
      cases hrow
      exact absurd ⟨rfl, haggregate.symm⟩ hne
    · rw [h.outbox_ne heq] at hrow
      exact ho.only oid' row hrow haggregate

theorem Saved.projected (h : Saved svc id rows r oid db db') :
    Projected svc db' id (rows ++ [r]) where
  none_of_nil := fun hnil => absurd hnil (by simp)
  some_of_ne := fun _ => by
    obtain ⟨row, hrow, hproj⟩ := h.projection
    exact ⟨row, hrow, by rwa [List.length_append, List.length_singleton]⟩

theorem Saved.projected_ne (h : Saved svc id rows r oid db db') {svc' : Service} {id' : String}
    (hne : ¬ (svc' = svc ∧ id' = id)) {rows' : List (EventStoreRow svc')}
    (hp : Projected svc' db id' rows') : Projected svc' db' id' rows' := by
  have hframe : Store.row db' (.projection svc' id') = Store.row db (.projection svc' id') :=
    h.frame _ hne
  refine ⟨fun hnil => hframe.trans (hp.none_of_nil hnil), fun hsome => ?_⟩
  rw [hframe]
  exact hp.some_of_ne hsome

/-- A save of another service's event leaves payments and their index alone. -/
theorem Saved.index_ne (h : Saved svc id rows r oid db db') (hsvc : svc ≠ .payment) :
    (∀ o, Store.row db' (.paymentOfOrder o) = Store.row db (.paymentOfOrder o)) ∧
      ∀ p, Store.row db' (.projection .payment p) = Store.row db (.projection .payment p) :=
  ⟨fun _ => h.frame _ hsvc, fun _ => h.frame _ fun hsaved => hsvc hsaved.1.symm⟩

theorem Saved.indexed (h : Saved svc id rows r oid db db') (hdb : Consistent db) (o : Uuid)
    (p : Uuid) : Store.row db' (.paymentOfOrder o) = some p ↔
      ∃ row : PaymentProjectionRow, Store.row db' (.projection .payment p) = some row ∧
        row.orderId = o := by
  by_cases hsvc : svc = .payment
  · subst hsvc
    obtain ⟨row, hrow, hself, hother, hold⟩ := h.index rfl
    have hframe : ∀ p, p ≠ id →
        Store.row db' (.projection .payment p) = Store.row db (.projection .payment p) :=
      fun p hp => h.frame _ fun hsaved => hp hsaved.2
    -- where the payment had a row, the row was about the same order
    have hsame : ∀ row₀ : PaymentProjectionRow, Store.row db (.projection .payment id) = some row₀ →
        row₀.orderId = row.orderId := by
      intro row₀ hrow₀
      rcases hold with ⟨hnil, -⟩ | hindex
      · rw [(hdb.projected h.stream).none_of_nil hnil] at hrow₀
        cases hrow₀
      · obtain ⟨row₁, hrow₁, horder⟩ := (hdb.index _ _).mp hindex
        rw [hrow₀] at hrow₁
        cases hrow₁
        exact horder
    constructor
    · intro hindex
      by_cases ho : o = row.orderId
      · subst ho
        rw [hself] at hindex
        cases hindex
        exact ⟨row, hrow, rfl⟩
      · rw [hother o ho] at hindex
        obtain ⟨row₀, hrow₀, horder⟩ := (hdb.index o p).mp hindex
        by_cases hp : p = id
        · subst hp
          exact absurd ((horder.symm.trans (hsame row₀ hrow₀))) ho
        · exact ⟨row₀, (hframe p hp).trans hrow₀, horder⟩
    · rintro ⟨row', hrow', rfl⟩
      by_cases hp : p = id
      · subst hp
        rw [hrow] at hrow'
        cases hrow'
        exact hself
      · rw [hframe p hp] at hrow'
        have hindex := (hdb.index _ p).mpr ⟨row', hrow', rfl⟩
        by_cases ho : row'.orderId = row.orderId
        · rw [ho] at hindex
          rcases hold with ⟨-, hnone⟩ | hsome
          · rw [hnone] at hindex
            cases hindex
          · rw [hsome] at hindex
            exact absurd (Option.some.inj hindex).symm hp
        · rw [hother _ ho, hindex]
  · obtain ⟨hindex, hproj⟩ := h.index_ne hsvc
    rw [hindex, hproj]
    exact hdb.index o p

/-- **A save keeps the database consistent.** -/
theorem Saved.consistent (h : Saved svc id rows r oid db db') (hdb : Consistent db) :
    Consistent db' where
  aggregate := by
    intro svc' id'
    obtain ⟨rows', oids, hrows', houtbox, hproj⟩ := hdb.aggregate svc' id'
    by_cases heq : svc' = svc ∧ id' = id
    · obtain ⟨rfl, rfl⟩ := heq
      cases hrows'.unique h.stream
      exact ⟨_, _, h.stream', h.outboxed houtbox, h.projected⟩
    · exact ⟨rows', oids, (h.stream_ne heq).mpr hrows', h.outboxed_ne heq houtbox,
        h.projected_ne heq hproj⟩
  index := h.indexed hdb

/-- Every stream is as it was or longer. -/
theorem Saved.extends (h : Saved svc id rows r oid db db') {svc' : Service} {id' : String}
    {rows' : List (EventStoreRow svc')} (h' : HasStream svc' db id' rows') :
    ∃ more, HasStream svc' db' id' (rows' ++ more) := by
  by_cases heq : svc' = svc ∧ id' = id
  · obtain ⟨rfl, rfl⟩ := heq
    cases h'.unique h.stream
    exact ⟨[r], h.stream'⟩
  · exact ⟨[], by rw [List.append_nil]; exact (h.stream_ne heq).mpr h'⟩

end Saved

/-- Rows that no event is stored in. -/
def Key.Beside : Key → Prop
  | .stockLevel _ | .sagaInstance _ => True
  | _ => False

/-- Other rows do not matter to consistency. -/
theorem Consistent.beside {db db' : Db} (h : Consistent db)
    (hframe : ∀ k : Key, ¬ k.Beside → Store.row db' k = Store.row db k) : Consistent db' where
  aggregate := by
    intro svc id
    obtain ⟨rows, oids, hrows, houtbox, hproj⟩ := h.aggregate svc id
    have hevents : ∀ k, Store.row db' (.eventStore svc id k) = Store.row db (.eventStore svc id k) :=
      fun k => hframe _ not_false
    have houtboxes : ∀ oid, Store.row db' (.outbox svc oid) = Store.row db (.outbox svc oid) :=
      fun oid => hframe _ not_false
    have hprojection : Store.row db' (.projection svc id) = Store.row db (.projection svc id) :=
      hframe _ not_false
    refine ⟨rows, oids, ⟨(hevents 0).trans hrows.1, fun k => (hevents _).trans (hrows.2 k)⟩, ?_, ?_⟩
    · refine ⟨houtbox.nodup, ?_, fun oid row hrow => houtbox.only oid row ?_⟩
      · exact houtbox.each.imp fun oid r hrow => (houtboxes oid).trans hrow
      · exact (houtboxes oid).symm.trans hrow
    · refine ⟨fun hnil => hprojection.trans (hproj.none_of_nil hnil), fun hsome => ?_⟩
      rw [hprojection]
      exact hproj.some_of_ne hsome
  index := by
    intro o p
    rw [hframe (.paymentOfOrder o) not_false, hframe (.projection .payment p) not_false]
    exact h.index o p

/-- Nothing stored but stock levels and sagas. -/
def Fresh (db : Db) : Prop := ∀ k : Key, ¬ k.Beside → Store.row db k = none

theorem Fresh.hasStream {db : Db} (h : Fresh db) (svc : Service) (id : String) :
    HasStream svc db id [] :=
  ⟨h _ not_false, fun k => h (.eventStore svc id (k + 1)) not_false⟩

/-- Every stream of a fresh database is empty. -/
theorem Fresh.stream_nil {db : Db} (h : Fresh db) {svc : Service} {id : String}
    {rows : List (EventStoreRow svc)} (hrows : HasStream svc db id rows) : rows = [] :=
  hrows.unique (h.hasStream svc id)

theorem Fresh.consistent {db : Db} (h : Fresh db) : Consistent db where
  aggregate := by
    intro svc id
    refine ⟨[], [], h.hasStream svc id, ⟨List.nodup_nil, .nil, ?_⟩,
      fun _ => h _ not_false, fun hne => absurd rfl hne⟩
    intro oid row hrow
    rw [h (.outbox svc oid) not_false] at hrow
    cases hrow
  index := by
    intro o p
    rw [h (.paymentOfOrder o) not_false, h (.projection .payment p) not_false]
    simp

end Saganova
