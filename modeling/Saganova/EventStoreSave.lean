import Saganova.EventStreams

/-!
# What a save does

A save of a freshly made or freshly loaded aggregate with one new event, run to
its commit, is a `Saved` step (`saved_of_runs`): the insert at the next
sequence fails on a stream that has grown since it was loaded, so a save that
commits was made from the whole stream.

The upsert leaves a column alone whose new value is undefined.  No event of
these aggregates takes such a value back (`KeepsColumns`), so the row shows the
replayed state all the same.
-/

namespace Saganova

open Concurrency

/-! ## Statements -/

section Statements

variable {db db' : Db} {k : Key} {row : Row k}

theorem runs_insert {u : Unit} :
    Tx.Runs db (insert k row) u db' ↔ Store.row db k = none ∧ db' = ⟨k, row⟩ :: db := by
  unfold insert
  rw [Tx.runs_lock]
  cases h : Store.row db k with
  | some old => simp
  | none =>
    simp only [true_and, Tx.runs_put]
    exact Tx.runs_pure.trans ⟨fun h => h.2, fun h => ⟨rfl, h⟩⟩

theorem runs_upsert {ins : DbTx Unit} {update : Row k → Row k} {u : Unit} :
    Tx.Runs db (upsert k ins update) u db' ↔
      (Store.row db k = none ∧ Tx.Runs db ins u db') ∨
        ∃ old, Store.row db k = some old ∧ db' = ⟨k, update old⟩ :: db := by
  unfold upsert
  rw [Tx.runs_lock]
  cases h : Store.row db k with
  | some old =>
    simp only [Tx.runs_put]
    exact ⟨fun h => .inr ⟨old, rfl, (Tx.runs_pure.mp h).2⟩, fun h => by
      obtain ⟨hnone, -⟩ | ⟨old', hold, hdb⟩ := h
      · cases hnone
      · cases hold
        exact Tx.runs_pure.mpr ⟨rfl, hdb⟩⟩
  | none => simp

theorem runs_integer {q : Num} {n : ℤ} : Tx.Runs db (integer q) n db' ↔
    q = n ∧ Int4 n ∧ db' = db := by
  unfold integer
  split
  · rename_i h
    rw [Tx.runs_pure]
    have hq : q = (q.num : Num) := (Rat.den_eq_one_iff q).mp h.1 |>.symm
    constructor
    · rintro ⟨rfl, hdb⟩
      exact ⟨hq, h.2, hdb⟩
    · rintro ⟨rfl, -, hdb⟩
      exact ⟨by simp, hdb⟩
  · rename_i h
    constructor
    · intro hruns
      exact absurd hruns Tx.runs_throw
    · rintro ⟨rfl, hint, -⟩
      exact absurd ⟨by simp, by simpa using hint⟩ h

end Statements

/-! ## Projections -/

/-- What is defined in the old state is defined in the new one. -/
def KeepsColumns : (svc : Service) → svc.AggregateState → svc.AggregateState → Prop
  | .order, (old : OrderState), (new : OrderState) =>
    (new.paymentId = none → old.paymentId = none) ∧
      (new.cancelReason = none → old.cancelReason = none)
  | .payment, (old : PaymentState), (new : PaymentState) =>
    new.orderId = old.orderId ∧ (new.pspReference = none → old.pspReference = none) ∧
      (new.declineCode = none → old.declineCode = none) ∧
      (new.reason = none → old.reason = none)
  | .inventory, (old : StockAggregateState), (new : StockAggregateState) =>
    (new.reservationId = none → old.reservationId = none) ∧
      (new.failedSku = none → old.failedSku = none) ∧
      (new.failReason = none → old.failReason = none)

/-- Such a column needs no update where it has none. -/
theorem orElse_of_keeps {α : Type} {new old col : Option α} (hkeep : new = none → old = none)
    (hcol : col = old) : (new <|> col) = new := by
  cases new with
  | some a => rfl
  | none =>
    rw [hcol, hkeep rfl]
    rfl

/-- The projection row of the aggregate shows its state, and only that row (and
the index entry of a new payment) is written. -/
structure Upserted (svc : Service) (agg : svc.Aggregate) (db db' : Db) : Prop where
  projection : ∃ row, Store.row db' (.projection svc agg.id) = some row ∧
    Projects svc agg.state agg.version row
  index : svc = .payment → ∃ row : PaymentProjectionRow,
    Store.row db' (.projection .payment agg.id) = some row ∧
    (∀ o, o ≠ row.orderId → Store.row db' (.paymentOfOrder o) = Store.row db (.paymentOfOrder o)) ∧
    (Store.row db (.projection .payment agg.id) = none ∧
        Store.row db (.paymentOfOrder row.orderId) = none ∧
        Store.row db' (.paymentOfOrder row.orderId) = some agg.id ∨
      (∃ old : PaymentProjectionRow, Store.row db (.projection .payment agg.id) = some old ∧
        old.orderId = row.orderId) ∧
        Store.row db' (.paymentOfOrder row.orderId) = Store.row db (.paymentOfOrder row.orderId))
  frame : ∀ k, k ≠ .projection svc agg.id → (∀ o, k = .paymentOfOrder o → svc ≠ .payment) →
    Store.row db' k = Store.row db k

section Upsert

variable {db db' : Db}

/-- The old row, if any, shows a state of which the new one keeps the columns. -/
def OldRowKept (svc : Service) (agg : svc.Aggregate) (db : Db) : Prop :=
  ∀ old, Store.row db (.projection svc agg.id) = some old →
    ∃ state version, Projects svc state version old ∧ KeepsColumns svc state agg.state

theorem upserted_order {agg : OrderAggregate} (hold : OldRowKept .order agg db)
    (h : Tx.Runs db (OrderProjectionRepository.upsertWithinTransaction agg) () db') :
    Upserted .order agg db db' := by
  obtain ⟨total, db₁, htotal, hupsert⟩ := Tx.runs_bind.mp h
  obtain ⟨hq, -, rfl⟩ := runs_integer.mp htotal
  -- one row is written, and it shows the state
  obtain ⟨row, rfl, hproj⟩ : ∃ row : OrderProjectionRow,
      db' = ⟨.projection .order agg.id, row⟩ :: db₁ ∧
        Projects .order agg.state agg.version row := by
    rcases runs_upsert.mp hupsert with ⟨hnone, hinsert⟩ | ⟨old, hsome, rfl⟩
    · obtain ⟨-, rfl⟩ := runs_insert.mp hinsert
      exact ⟨_, rfl, rfl, rfl, rfl, hq.symm, rfl, rfl, rfl⟩
    · obtain ⟨state, version, hstate, hpayment, hcancel⟩ := hold old hsome
      obtain ⟨-, -, -, -, hpaymentId, hcancelReason, -⟩ := hstate
      exact ⟨_, rfl, rfl, rfl, rfl, hq.symm, orElse_of_keeps hpayment hpaymentId,
        orElse_of_keeps hcancel hcancelReason, rfl⟩
  exact ⟨⟨row, Store.row_cons_self _ _ _, hproj⟩, nofun,
    fun k hk _ => Store.row_cons_ne _ _ hk⟩

theorem upserted_inventory {agg : StockAggregate} (hold : OldRowKept .inventory agg db)
    (h : Tx.Runs db (ReservationProjectionRepository.upsertWithinTransaction agg) () db') :
    Upserted .inventory agg db db' := by
  obtain ⟨row, rfl, hproj⟩ : ∃ row : ReservationProjectionRow,
      db' = ⟨.projection .inventory agg.id, row⟩ :: db ∧
        Projects .inventory agg.state agg.version row := by
    rcases runs_upsert.mp h with ⟨hnone, hinsert⟩ | ⟨old, hsome, rfl⟩
    · obtain ⟨-, rfl⟩ := runs_insert.mp hinsert
      exact ⟨_, rfl, rfl, rfl, rfl, rfl, rfl, rfl⟩
    · obtain ⟨state, version, hstate, hreservation, hsku, hreason⟩ := hold old hsome
      obtain ⟨-, hreservationId, -, hfailedSku, hfailReason, -⟩ := hstate
      exact ⟨_, rfl, rfl, orElse_of_keeps hreservation hreservationId, rfl,
        orElse_of_keeps hsku hfailedSku, orElse_of_keeps hreason hfailReason, rfl⟩
  exact ⟨⟨row, Store.row_cons_self _ _ _, hproj⟩, nofun,
    fun k hk _ => Store.row_cons_ne _ _ hk⟩

theorem upserted_payment {agg : PaymentAggregate} (hold : OldRowKept .payment agg db)
    (h : Tx.Runs db (PaymentProjectionRepository.upsertWithinTransaction agg) () db') :
    Upserted .payment agg db db' := by
  obtain ⟨amount, db₁, hamount, hupsert⟩ := Tx.runs_bind.mp h
  obtain ⟨hq, -, rfl⟩ := runs_integer.mp hamount
  rcases runs_upsert.mp hupsert with ⟨hnone, hinsert⟩ | ⟨old, hsome, hdb'⟩
  · -- a new payment enters the index first
    obtain ⟨u, db₂, hindex, hinsert⟩ := Tx.runs_bind.mp hinsert
    obtain ⟨hfree, rfl⟩ := runs_insert.mp hindex
    obtain ⟨row, hdb', hproj, horder⟩ : ∃ row : PaymentProjectionRow,
        db' = ⟨.projection .payment agg.id, row⟩ ::
          ⟨.paymentOfOrder agg.state.orderId, agg.id⟩ :: db₁ ∧
        Projects .payment agg.state agg.version row ∧ row.orderId = agg.state.orderId :=
      ⟨_, (runs_insert.mp hinsert).2, ⟨rfl, rfl, hq.symm, rfl, rfl, rfl, rfl⟩, rfl⟩
    subst hdb'
    refine ⟨⟨row, Store.row_cons_self _ _ _, hproj⟩, fun _ => ⟨row, Store.row_cons_self _ _ _,
      fun o ho => ?_, .inl ⟨hnone, horder ▸ hfree, ?_⟩⟩, fun k hk hk' => ?_⟩
    · rw [Store.row_cons_ne _ _ (by simp), Store.row_cons_ne _ _ (by rw [← horder]; simpa using ho)]
    · rw [Store.row_cons_ne _ _ (by simp), horder, Store.row_cons_self]
    · rw [Store.row_cons_ne _ _ hk, Store.row_cons_ne]
      exact fun heq => hk' _ heq rfl
  · obtain ⟨state, version, hstate, horder, hpsp, hcode, hreason⟩ := hold old hsome
    obtain ⟨horderId, -, -, hpspReference, hdeclineCode, hreason', -⟩ := hstate
    obtain ⟨row, hdb', hproj, horder'⟩ : ∃ row : PaymentProjectionRow,
        db' = ⟨.projection .payment agg.id, row⟩ :: db₁ ∧
        Projects .payment agg.state agg.version row ∧ old.orderId = row.orderId :=
      ⟨_, hdb', ⟨rfl, rfl, hq.symm, orElse_of_keeps hpsp hpspReference,
        orElse_of_keeps hcode hdeclineCode, orElse_of_keeps hreason hreason', rfl⟩,
        horderId.trans horder.symm⟩
    subst hdb'
    have hindex : ∀ o, Store.row (⟨.projection .payment agg.id, row⟩ :: db₁ : Db)
        (.paymentOfOrder o) = Store.row db₁ (.paymentOfOrder o) :=
      fun o => Store.row_cons_ne _ _ (by simp)
    exact ⟨⟨row, Store.row_cons_self _ _ _, hproj⟩, fun _ => ⟨row, Store.row_cons_self _ _ _,
      fun o _ => hindex o, .inr ⟨⟨old, hsome, horder'⟩, hindex _⟩⟩,
      fun k hk _ => Store.row_cons_ne _ _ hk⟩

theorem upserted_of_runs {svc : Service} {agg : svc.Aggregate} (hold : OldRowKept svc agg db)
    (h : Tx.Runs db (svc.upsertWithinTransaction agg) () db') : Upserted svc agg db db' := by
  cases svc with
  | order => exact upserted_order hold h
  | payment => exact upserted_payment hold h
  | inventory => exact upserted_inventory hold h

end Upsert

/-! ## Saves -/

section Save

variable {svc : Service} {id correlationId : String} {rows : List (EventStoreRow svc)}
  {event : svc.Event} {time : Time} {ids : ℕ → Uuid} {db db' : Db}

/-- The row of an event. -/
def eventRow (svc : Service) (event : svc.Event) (time : Time) (correlationId : String) :
    EventStoreRow svc where
  aggregateType := svc.aggregateType
  event := event
  occurredAt := time
  correlationId := correlationId

/-- What a stream is loaded as, with one more event applied. -/
def withEvent (svc : Service) (id : String) (rows : List (EventStoreRow svc)) (event : svc.Event)
    (time : Time) : svc.Aggregate :=
  (loaded svc id rows).apply svc.when event time

@[simp] theorem withEvent_id : (withEvent svc id rows event time).id = id := rfl

@[simp] theorem withEvent_version : (withEvent svc id rows event time).version = rows.length + 1 :=
  rfl

@[simp] theorem withEvent_uncommittedEvents :
    (withEvent svc id rows event time).uncommittedEvents = [⟨event, time⟩] := rfl

theorem withEvent_state : (withEvent svc id rows event time).state =
    replay svc (rows ++ [eventRow svc event time correlationId]) := by
  rw [replay_snoc]
  rfl

@[simp] theorem expectedVersion_withEvent :
    expectedVersion svc (withEvent svc id rows event time) = rows.length := rfl

/-- The two inserts of the one event, and then the projection. -/
theorem runs_persist : Tx.Runs db (persist svc (withEvent svc id rows event time) correlationId ids)
      () db' ↔
    Store.row db (.eventStore svc id (rows.length + 1)) = none ∧
    Store.row db (.outbox svc (ids (rows.length + 1))) = none ∧
    Tx.Runs (⟨.outbox svc (ids (rows.length + 1)),
          outboxRow svc id (eventRow svc event time correlationId)⟩ ::
        ⟨.eventStore svc id (rows.length + 1), eventRow svc event time correlationId⟩ :: db)
      (svc.upsertWithinTransaction (withEvent svc id rows event time)) () db' := by
  unfold persist
  rw [withEvent_uncommittedEvents, expectedVersion_withEvent, withEvent_id]
  simp only [appendEvents, Tx.runs_bind, runs_insert, Tx.runs_pure]
  constructor
  · rintro ⟨-, db₁, ⟨-, db₂, ⟨hevent, rfl⟩, -, db₃, ⟨houtbox, rfl⟩, -, rfl⟩, hupsert⟩
    rw [Store.row_cons_ne _ _ (by simp)] at houtbox
    exact ⟨hevent, houtbox, hupsert⟩
  · rintro ⟨hevent, houtbox, hupsert⟩
    refine ⟨(), _, ⟨(), _, ⟨hevent, rfl⟩, (), _, ⟨?_, rfl⟩, trivial, rfl⟩, hupsert⟩
    rw [Store.row_cons_ne _ _ (by simp)]
    exact houtbox

/-- `db'` holds the rows of a save of the event `r` to the stream `rows`. -/
def Persisted (svc : Service) (id : String) (rows : List (EventStoreRow svc))
    (r : EventStoreRow svc) (oid : Uuid) (db db' : Db) : Prop :=
  ∃ event time correlationId ids, r = eventRow svc event time correlationId ∧
    oid = ids (rows.length + 1) ∧
    Tx.Runs db (persist svc (withEvent svc id rows event time) correlationId ids) () db'

/-- **A save that commits appends its event to the stream it was made from.** -/
theorem saved_of_runs (hdb : Consistent db) {more : List (EventStoreRow svc)}
    (hstream : HasStream svc db id (rows ++ more))
    (hkeep : rows ≠ [] → KeepsColumns svc (replay svc rows) (svc.when (replay svc rows) event))
    (h : Tx.Runs db (persist svc (withEvent svc id rows event time) correlationId ids) () db') :
    Saved svc id rows (eventRow svc event time correlationId) (ids (rows.length + 1)) db db' := by
  obtain ⟨hfree, houtbox, hupsert⟩ := runs_persist.mp h
  -- the next sequence is free, so nothing was appended since
  have hmore : more = [] := by
    have hlen := hstream.length_le hfree
    rw [List.length_append] at hlen
    exact List.length_eq_zero_iff.mp (by omega)
  subst hmore
  rw [List.append_nil] at hstream
  have hproj := hdb.projected hstream
  generalize hdb₁ : (⟨.outbox svc (ids (rows.length + 1)),
      outboxRow svc id (eventRow svc event time correlationId)⟩ ::
    ⟨.eventStore svc id (rows.length + 1), eventRow svc event time correlationId⟩ :: db : Db) = db₁
    at hupsert
  have hbefore : ∀ k, k ≠ .outbox svc (ids (rows.length + 1)) →
      k ≠ .eventStore svc id (rows.length + 1) → Store.row db₁ k = Store.row db k := by
    intro k houtbox hevent
    rw [← hdb₁, Store.row_cons_ne _ _ houtbox, Store.row_cons_ne _ _ hevent]
  have hprojection : ∀ svc' p, Store.row db₁ (.projection svc' p) =
      Store.row db (.projection svc' p) := fun _ _ => hbefore _ (by simp) (by simp)
  have hindex : ∀ o, Store.row db₁ (.paymentOfOrder o) = Store.row db (.paymentOfOrder o) :=
    fun o => hbefore _ (by simp) (by simp)
  have hold : OldRowKept svc (withEvent svc id rows event time) db₁ := by
    intro old hrow
    rw [withEvent_id, hprojection] at hrow
    by_cases hrows : rows = []
    · rw [hproj.none_of_nil hrows] at hrow
      cases hrow
    · obtain ⟨row, hsome, hshows⟩ := hproj.some_of_ne hrows
      rw [hrow] at hsome
      cases hsome
      exact ⟨_, _, hshows, hkeep hrows⟩
  obtain ⟨hshows, hentry, hframe⟩ := upserted_of_runs hold hupsert
  have hevent : Store.row db₁ (.eventStore svc id (rows.length + 1)) =
      some (eventRow svc event time correlationId) := by
    rw [← hdb₁, Store.row_cons_ne _ _ (by simp), Store.row_cons_self]
  have hout : Store.row db₁ (.outbox svc (ids (rows.length + 1))) =
      some (outboxRow svc id (eventRow svc event time correlationId)) := by
    rw [← hdb₁, Store.row_cons_self]
  refine ⟨hstream, (hframe _ (by simp) (by simp)).trans hevent, houtbox,
    (hframe _ (by simp) (by simp)).trans hout, ?_, fun hsvc => ?_, fun k hk => ?_⟩
  · rw [withEvent_id, withEvent_version, withEvent_state] at hshows
    exact hshows
  · obtain ⟨row, hrow, hother, hcase⟩ := hentry hsvc
    subst hsvc
    rw [withEvent_id] at hrow hcase
    rw [hprojection, hindex] at hcase
    refine ⟨row, hrow, ?_, fun o ho => (hother o ho).trans (hindex o), ?_⟩
    · rcases hcase with ⟨-, -, hself⟩ | ⟨⟨old, hold, horder⟩, hsame⟩
      · exact hself
      · rw [hsame, ← horder]
        exact (hdb.index _ _).mpr ⟨old, hold, rfl⟩
    · rcases hcase with ⟨hnone, hfree', -⟩ | ⟨⟨old, hold, horder⟩, -⟩
      · refine .inl ⟨?_, hfree'⟩
        by_contra hrows
        obtain ⟨row', hrow', -⟩ := hproj.some_of_ne hrows
        rw [hnone] at hrow'
        cases hrow'
      · refine .inr ?_
        rw [← horder]
        exact (hdb.index _ _).mpr ⟨old, hold, rfl⟩
  · have hk₁ : Store.row db' k = Store.row db₁ k := by
      refine hframe k (fun heq => hk ?_) fun o heq hsvc => hk ?_
      · rw [heq, withEvent_id]
        exact ⟨rfl, rfl⟩
      · rw [heq]
        exact hsvc
    rw [hk₁]
    refine hbefore k (fun heq => hk ?_) fun heq => hk ?_
    · rw [heq]
      exact ⟨rfl, rfl⟩
    · rw [heq]
      exact ⟨rfl, rfl, rfl⟩

end Save

end Saganova
