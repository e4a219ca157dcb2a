import Saganova.ServiceConsistency

/-!
# Order handlers are linearizable

Whatever runs at once, an order's stream is one of `orderStreams`, and it is the
stream that the executions which committed its events leave when they run one
after another (`orderLinearizable`).

A decision is taken on a stream loaded earlier, but the insert of the next
sequence fails on a stream that has grown since.  So what commits was decided
on the whole stream, and would be decided again in a serial run.
-/

namespace Saganova

open Concurrency

/-! ## The streams of an order -/

def orderStreams : List (List EventType) :=
  [ [],
    [.orderCreated],
    [.orderCreated, .orderConfirmed],
    [.orderCreated, .orderCancelled] ]

def eventTypes (rows : List (EventStoreRow .order)) : List EventType :=
  rows.map fun r => OrderEvent.type r.event

section Stream

variable {rows : List (EventStoreRow .order)} {r : EventStoreRow .order}

theorem eventTypes_snoc : eventTypes (rows ++ [r]) = eventTypes rows ++ [OrderEvent.type r.event] := by
  simp [eventTypes]

/-- The last event says the status. -/
theorem status_snoc : (replay .order (rows ++ [r])).status = match r.event with
    | .orderCreated _ => .created
    | .orderConfirmed _ => .confirmed
    | .orderCancelled _ => .cancelled := by
  rw [replay_snoc]
  show (OrderAggregate.when (replay .order rows) r.event).status = _
  cases r.event <;> rfl

/-- A stream of an order that is neither confirmed nor cancelled has been created only. -/
theorem eventTypes_of_pending (h : eventTypes rows ∈ orderStreams) (hne : rows ≠ [])
    (hpending : ¬ ((replay .order rows).status = .cancelled ∨
      (replay .order rows).status = .confirmed)) : eventTypes rows = [.orderCreated] := by
  obtain ⟨init, r, rfl⟩ : ∃ init r, rows = init ++ [r] :=
    ⟨rows.dropLast, rows.getLast hne, (List.dropLast_append_getLast hne).symm⟩
  rw [status_snoc] at hpending
  rw [eventTypes_snoc] at h ⊢
  cases hevent : r.event with
  | orderCreated p =>
    rw [hevent] at h
    have hinit : eventTypes init = [] := by
      simp only [orderStreams, OrderEvent.type, List.mem_cons, List.not_mem_nil, or_false] at h
      rcases h with h | h | h | h
      · simp at h
      · simpa using h
      · have := congrArg List.getLast? h
        simp at this
      · have := congrArg List.getLast? h
        simp at this
    rw [hinit]
    rfl
  | orderConfirmed p => exact absurd (.inr (by rw [hevent])) hpending
  | orderCancelled p => exact absurd (.inl (by rw [hevent])) hpending

/-- What may be appended keeps to the streams. -/
theorem Appends.orderStream {s : Shared} {t : Task} {o : Uuid} (happ : Appends s t .order o rows r)
    (h : eventTypes rows ∈ orderStreams) : eventTypes (rows ++ [r]) ∈ orderStreams := by
  rw [eventTypes_snoc]
  cases happ with
  | created =>
    show [] ++ [EventType.orderCreated] ∈ orderStreams
    decide
  | confirmed _ _ _ hne hstatus =>
    rw [eventTypes_of_pending h hne (by simp [hstatus])]
    show [EventType.orderCreated] ++ [EventType.orderConfirmed] ∈ orderStreams
    decide
  | cancelled _ _ _ hne hpending =>
    rw [eventTypes_of_pending h hne hpending]
    show [EventType.orderCreated] ++ [EventType.orderCancelled] ∈ orderStreams
    decide

end Stream

theorem orderStreams_hold {s : State} (h : Reach serviceSystem anything s) (o : Uuid)
    (rows : List (EventStoreRow .order)) (hrows : HasStream .order s.shared.db o rows) :
    eventTypes rows ∈ orderStreams := by
  refine Protocol.invariant serviceSystem_keeps
    (I := fun s => ∀ o rows, HasStream .order s.db o rows → eventTypes rows ∈ orderStreams)
    (fun s hs o rows hrows => ?_) ?_ h o rows hrows
  · rw [hs.1.stream_nil hrows]
    decide
  intro t seen s s' _ hs hstep o rows hrows
  rcases hstep.stream_before hrows with hold | ⟨rows₁, r, hrows₁, rfl, happ⟩
  · exact hs o rows hold
  · exact happ.orderStream (hs o rows₁ hrows₁)

/-! ## Executions that commit -/

/-- An execution of a handler of the order service: the record it was given,
what the clock said, and the ids it drew. -/
structure Execution where
  record : Record CommandEnvelope
  time : Time
  ids : ℕ → Uuid

namespace Execution

def task (e : Execution) : Task := .command .order e.record

def answer (e : Execution) (k : ℕ) : (a : Act) → Act.Reply a
  | .now => e.time
  | .randomUUIDs => e.ids
  | a => allWell k a

/-- The execution runs alone, from its delivery to its offset commit. -/
def run (e : Execution) (s : Shared) : Shared := ((code e.task).run e.answer e.task s).2

end Execution

/-- One after another, from an empty database. -/
def serially (es : List Execution) : Shared := es.foldl (fun s e => e.run s) ⟨[], []⟩

@[simp] theorem serially_snoc (es : List Execution) (e : Execution) :
    serially (es ++ [e]) = e.run (serially es) := by
  simp [serially]

/-- The row of an event of the order. -/
def Key.isEventOf (o : Uuid) : Key → Bool
  | .eventStore .order id _ => id = o
  | _ => false

/-- The record whose execution committed an event of the order, if this is such a commit. -/
def commitOf (o : Uuid) : Event Row Act.Reply Task → Option (Record CommandEnvelope)
  | .committed (.command .order r) w => if w.any (·.1.isEventOf o) then some r else none
  | _ => none

/-- The records whose executions committed events of the order, in commit order. -/
def committersOf (o : Uuid) (s : Shared) : List (Record CommandEnvelope) :=
  s.trace.reverse.filterMap (commitOf o)

theorem committersOf_acted (o : Uuid) (s : Shared) (t : Task) (a : Act) (res : Act.Reply a) :
    committersOf o (s.acted t a res) = committersOf o s := by
  simp [committersOf, commitOf]

theorem committersOf_commit (o : Uuid) (s : Shared) (t : Task) (w : Db) :
    committersOf o (s.commit t w) = committersOf o s ++ (commitOf o (.committed t w)).toList := by
  unfold committersOf
  rw [Shared.commit_trace, List.reverse_cons, List.filterMap_append]
  cases h : commitOf o (.committed t w) <;> simp [h]

/-! ## A commit, once more -/

section Serial

variable {o : Uuid} {rows : List (EventStoreRow .order)} {event : OrderEvent} {time : Time}
  {correlationId : String} {ids : ℕ → Uuid} {db db' : Db}

/-- What a save of an order's event writes, and that its total fits the column. -/
theorem writes_of_persist
    (h : Tx.Runs db (persist .order (withEvent .order o rows event time) correlationId ids) () db') :
    (∃ row : OrderProjectionRow, db' =
      ⟨.projection .order o, row⟩ ::
        ⟨.outbox .order (ids (rows.length + 1)),
          outboxRow .order o (eventRow .order event time correlationId)⟩ ::
        ⟨.eventStore .order o (rows.length + 1), eventRow .order event time correlationId⟩ :: db) ∧
    ∃ n : ℤ, (withEvent .order o rows event time).state.totalCents = n ∧ Int4 n := by
  obtain ⟨-, -, hupsert⟩ := runs_persist.mp h
  obtain ⟨total, db₁, htotal, hupsert⟩ := Tx.runs_bind.mp hupsert
  obtain ⟨hq, hint, rfl⟩ := runs_integer.mp htotal
  refine ⟨?_, total, hq, hint⟩
  rcases runs_upsert.mp hupsert with ⟨-, hinsert⟩ | ⟨old, -, rfl⟩
  · exact ⟨_, (runs_insert.mp hinsert).2⟩
  · exact ⟨_, rfl⟩

/-- Over any rows with the same stream and a free outbox id the save commits. -/
theorem persist_commits (hrows : HasStream .order db o rows)
    (hfree : Store.row db (.outbox .order (ids (rows.length + 1))) = none) {n : ℤ}
    (htotal : (withEvent .order o rows event time).state.totalCents = n) (hint : Int4 n) :
    ∃ db', Tx.Runs db (persist .order (withEvent .order o rows event time) correlationId ids) ()
      db' := by
  have hupsert : ∀ db₁, ∃ db', Tx.Runs db₁
      (Service.upsertWithinTransaction .order (withEvent .order o rows event time)) () db' := by
    intro db₁
    cases hrow : Store.row db₁ (.projection .order o) with
    | none => exact ⟨_, Tx.runs_bind.mpr ⟨n, db₁, runs_integer.mpr ⟨htotal, hint, rfl⟩,
        runs_upsert.mpr (.inl ⟨hrow, runs_insert.mpr ⟨hrow, rfl⟩⟩)⟩⟩
    | some old => exact ⟨_, Tx.runs_bind.mpr ⟨n, db₁, runs_integer.mpr ⟨htotal, hint, rfl⟩,
        runs_upsert.mpr (.inr ⟨old, hrow, rfl⟩)⟩⟩
  obtain ⟨db', hdb'⟩ := hupsert _
  exact ⟨db', runs_persist.mpr ⟨hrows.next, hfree, hdb'⟩⟩

variable {e : Execution} {s : Shared}

/-- A save whose transaction commits returns, with its rows written. -/
theorem Execution.run_save {agg : OrderAggregate} (hne : agg.uncommittedEvents ≠ [])
    (h : Tx.Runs s.db (persist .order agg correlationId e.ids) () db') :
    ∃ s', Proc.run e.answer e.task
      (do let _ ← OrderEventStoreRepository.save agg correlationId) s = (.ok (), s') ∧ s'.db = db' := by
  obtain ⟨w, hw, rfl⟩ := h
  unfold OrderEventStoreRepository.save Saganova.save
  have htx : Proc.run e.answer e.task (Proc.transaction (persist .order agg correlationId
        (e.answer s.trace.length .randomUUIDs)) : Handler Unit)
      (s.acted e.task .randomUUIDs (e.answer s.trace.length .randomUUIDs)) =
        (.ok (), (s.acted e.task .randomUUIDs e.ids).commit e.task w) :=
    Proc.run_tx_ok _ _ _ hw
  rw [if_neg (by simpa using hne), Proc.run_bind, randomUUIDs_bind, Proc.run_act, Proc.run_bind,
    Proc.run_tryCatch, htx]
  exact ⟨_, rfl, rfl⟩

/-- Once its message is dispatched, only the offset is left to commit. -/
theorem Execution.run_db {s' : Shared} {a : Unit}
    (h : Proc.run e.answer e.task (OrderKafkaConsumer.dispatch e.record.value) s = (.ok a, s')) :
    (e.run s).db = s'.db := by
  show (Proc.run e.answer e.task (OrderKafkaConsumer.dispatch e.record.value >>= fun _ =>
    commitOffsets e.record.topic e.record.partition (e.record.offset + 1)) s).2.db = s'.db
  rw [Proc.run_bind, h]
  rfl

theorem Execution.run_load (hrows : HasStream .order s.db o rows) (hne : rows ≠ [])
    (f : Option OrderAggregate → Handler Unit) :
    Proc.run e.answer e.task (OrderEventStoreRepository.loadAggregate o >>= f) s =
      Proc.run e.answer e.task (f (some (loaded .order o rows))) s := by
  show Proc.run e.answer e.task (f (hydrateFrom .order o (loadStream .order s.db o))) s = _
  rw [hydrateFrom_loadStream hrows, if_neg hne]

theorem confirm_created {paymentId : Uuid} (h : (replay .order rows).status = .created) :
    OrderAggregate.confirm (loaded .order o rows) paymentId time =
      .ok (withEvent .order o rows (.orderConfirmed { orderId := o, paymentId }) time) :=
  if_neg (not_not.mpr h)

theorem cancel_pending {reason : String} (h : ¬ ((replay .order rows).status = .cancelled ∨
    (replay .order rows).status = .confirmed)) :
    OrderAggregate.cancel (loaded .order o rows) reason time =
      .ok (withEvent .order o rows (.orderCancelled { orderId := o, reason }) time) :=
  if_neg h

/-- **Decided again.**  Over the stream that its event was appended to, an
execution run alone commits the same event. -/
theorem Appends.run_again {s₀ : Shared} {r : EventStoreRow .order}
    (happ : Appends s₀ e.task .order o rows r)
    (hr : r = eventRow .order event e.time correlationId) (hrows : HasStream .order s.db o rows)
    (hruns : Tx.Runs s.db (persist .order (withEvent .order o rows event e.time) correlationId e.ids)
      () db') : (e.run s).db = db' := by
  obtain ⟨s', hrun, rfl⟩ := Execution.run_save (e := e) (s := s.acted e.task .now e.time) (by simp) hruns
  generalize htask : e.task = t at happ
  cases happ with
  | @created _ _ customerId items _ htype hid hcustomer hitems =>
    cases htask
    cases hr
    refine Execution.run_db (a := ()) ?_
    unfold OrderKafkaConsumer.dispatch
    simp only [htype, hid, hcustomer, hitems]
    show Proc.run e.answer e.task (CreateOrderHandler.execute _) s = _
    unfold CreateOrderHandler.execute
    rw [now_bind, Proc.run_act, Proc.run_tryCatch]
    have hcreate : Proc.run e.answer e.task (OrderEventStoreRepository.save
          (OrderAggregate.createNew o customerId items (e.answer s.trace.length .now))
          e.record.value.correlationId >>= fun _ => Pure.pure ())
        (s.acted e.task .now (e.answer s.trace.length .now)) = (.ok (), s') := hrun
    rw [hcreate]
  | confirmed htype hid hpayment hne hstatus =>
    cases htask
    cases hr
    refine Execution.run_db (a := ()) ?_
    unfold OrderKafkaConsumer.dispatch
    simp only [htype, hid, hpayment]
    show Proc.run e.answer e.task (ConfirmOrderHandler.execute _) s = _
    unfold ConfirmOrderHandler.execute
    rw [Execution.run_load hrows hne]
    simp only [now_bind, Proc.run_act, confirm_created hstatus]
    exact hrun
  | @cancelled _ _ reason _ _ htype hid hreason hne hpending =>
    cases htask
    cases hr
    refine Execution.run_db (a := ()) ?_
    unfold OrderKafkaConsumer.dispatch
    simp only [htype, hid, hreason]
    show Proc.run e.answer e.task (CancelOrderHandler.execute _) s = _
    unfold CancelOrderHandler.execute
    rw [Execution.run_load hrows hne]
    simp only [now_bind, Proc.run_act, cancel_pending hpending]
    exact hrun

end Serial

/-! ## The serial run -/

section SerialRun

variable {o : Uuid} {rows : List (EventStoreRow .order)} {s s' : Shared} {t : Task} {db sdb : Db}

theorem Appends.task {svc : Service} {id : String} {rows : List (EventStoreRow svc)}
    {r : EventStoreRow svc} (happ : Appends s t svc id rows r) :
    ∃ record, t = .command svc record := by
  cases happ <;> exact ⟨_, rfl⟩

theorem Appends.order_keeps {event : OrderEvent} {time : Time} {correlationId : String}
    {r : EventStoreRow .order} (happ : Appends s t .order o rows r)
    (hr : r = eventRow .order event time correlationId) (hne : rows ≠ []) :
    KeepsColumns .order (replay .order rows) (OrderAggregate.when (replay .order rows) event) := by
  cases happ with
  | created => exact absurd rfl hne
  | confirmed =>
    cases hr
    exact keeps_confirmed _ _
  | cancelled =>
    cases hr
    exact keeps_cancelled _ _

/-- A serial run has come to the same stream, with ids that are taken in `db`. -/
structure Serial (o : Uuid) (rows : List (EventStoreRow .order)) (db sdb : Db) : Prop where
  stream : HasStream .order sdb o rows
  consistent : Consistent sdb
  outbox : ∀ oid, Store.row db (.outbox .order oid) = none →
    Store.row sdb (.outbox .order oid) = none

/-- The step lemma: what is committed next is committed next in the serial run. -/
theorem Serial.snoc {es : List Execution} (h : Serial o rows s.db (serially es).db)
    {r : EventStoreRow .order} {oid : Uuid} {w : Db} (happ : Appends s t .order o rows r)
    (hsaved : Saved .order o rows r oid s.db (w ++ s.db))
    (hpersisted : Persisted .order o rows r oid s.db (w ++ s.db)) :
    ∃ e : Execution, e.task = t ∧
      Serial o (rows ++ [r]) (w ++ s.db) (serially (es ++ [e])).db := by
  obtain ⟨event, time, correlationId, ids, hr, hoid, hruns⟩ := hpersisted
  obtain ⟨record, rfl⟩ := happ.task
  obtain ⟨-, n, htotal, hint⟩ := writes_of_persist hruns
  have hfree : Store.row (serially es).db (.outbox .order (ids (rows.length + 1))) = none := by
    rw [← hoid]
    exact h.outbox oid hsaved.outbox_free
  obtain ⟨sdb', hserial⟩ : ∃ sdb', Tx.Runs (serially es).db
      (persist .order (withEvent .order o rows event time) correlationId ids) () sdb' :=
    persist_commits h.stream hfree htotal hint
  -- the execution decides on the same stream again
  have hagain := happ.run_again (e := ⟨record, time, ids⟩) hr h.stream hserial
  have hstream : HasStream .order (serially es).db o (rows ++ []) := by
    rw [List.append_nil]
    exact h.stream
  have hsaved' := saved_of_runs h.consistent hstream (happ.order_keeps hr) hserial
  refine ⟨⟨record, time, ids⟩, rfl, ?_⟩
  rw [serially_snoc, hagain]
  refine ⟨?_, hsaved'.consistent h.consistent, fun oid' hnone => ?_⟩
  · rw [hr]
    exact hsaved'.stream'
  · have hne : oid' ≠ oid := by
      rintro rfl
      rw [hsaved.outbox] at hnone
      cases hnone
    rw [hsaved.outbox_ne fun heq => hne heq.2] at hnone
    rw [hsaved'.outbox_ne fun heq => hne (heq.2.trans hoid.symm)]
    exact h.outbox oid' hnone

/-- The executions that committed the order's events come to its stream one after another. -/
def Serializable (o : Uuid) (s : Shared) : Prop :=
  ∀ rows, HasStream .order s.db o rows → ∃ es : List Execution,
    es.map (·.record) = committersOf o s ∧ Serial o rows s.db (serially es).db

/-- A save commits an event of one order. -/
theorem any_isEventOf {id : Uuid} {r : EventStoreRow .order} {oid : Uuid} {w : Db}
    (h : Persisted .order id rows r oid db (w ++ db)) :
    w.any (·.1.isEventOf o) = decide (id = o) := by
  obtain ⟨event, time, correlationId, ids, -, -, hruns⟩ := h
  obtain ⟨⟨row, hw⟩, -⟩ := writes_of_persist hruns
  have hwrites := List.append_cancel_right (hw.trans (List.append_assoc [_, _, _] [] db).symm)
  rw [hwrites]
  simp [Key.isEventOf]

/-- A step that is not about the order. -/
theorem Serializable.frame (h : Serializable o s)
    (hstream : ∀ rows, HasStream .order s'.db o rows ↔ HasStream .order s.db o rows)
    (hcommitters : committersOf o s' = committersOf o s) (hgrow : Grows s s') :
    Serializable o s' := by
  intro rows hrows
  obtain ⟨es, hes, hserial⟩ := h rows ((hstream rows).mp hrows)
  refine ⟨es, hes.trans hcommitters.symm, hserial.stream, hserial.consistent, fun oid hnone => ?_⟩
  refine hserial.outbox oid ?_
  by_contra hsome
  obtain ⟨row, hrow⟩ := Option.ne_none_iff_exists'.mp hsome
  rw [hgrow.outbox hrow] at hnone
  cases hnone

theorem serializable_step {seen : Db} (hinv : Consistent s.db) (hs : Serializable o s)
    (h : ServiceStep t seen s s') : Serializable o s' := by
  have hgrow := h.grows hinv
  cases h with
  | acted a res _ => exact hs.frame (fun _ => Iff.rfl) (committersOf_acted _ _ _ _ _) hgrow
  | @sagaSaved r orderId decision row ht hdecision hwrites =>
    refine hs.frame (fun rows => ?_) ?_ hgrow
    · have hrow : ∀ k, Store.row (s.commit t [⟨.sagaInstance orderId, row⟩]).db
          (.eventStore .order o k) = Store.row s.db (.eventStore .order o k) :=
        fun k => @Store.row_cons_ne _ _ _ s.db _ (.sagaInstance orderId) row (by simp)
      unfold HasStream
      simp only [hrow]
    · rw [committersOf_commit, ht]
      exact List.append_nil _
  | @appended svc id rows₁ r oid db w happ hstock hsaved hpersisted =>
    have happended := appended_of_saved (t := t) hstock.onlyStock hsaved
    by_cases hsvc : svc = .order
    · subst hsvc
      cases hstock
      by_cases ho : o = id
      · subst ho
        intro rows hrows
        rw [hrows.unique happended.after]
        obtain ⟨es, hes, hserial⟩ := hs rows₁ happended.before
        obtain ⟨e, rfl, hnext⟩ := hserial.snoc happ hsaved hpersisted
        refine ⟨es ++ [e], ?_, hnext⟩
        rw [committersOf_commit, List.map_append, hes]
        simp [commitOf, Execution.task, any_isEventOf hpersisted]
      · refine hs.frame (fun rows => happended.others fun heq => ho heq.2) ?_ hgrow
        obtain ⟨record, rfl⟩ := happ.task
        rw [committersOf_commit]
        simp [commitOf, any_isEventOf hpersisted, Ne.symm ho]
    · refine hs.frame (fun rows => happended.others fun heq => hsvc heq.1.symm) ?_ hgrow
      obtain ⟨record, rfl⟩ := happ.task
      rw [committersOf_commit]
      cases svc with
      | order => exact absurd rfl hsvc
      | payment => exact List.append_nil _
      | inventory => exact List.append_nil _

theorem serializable {s : State} (h : Reach serviceSystem anything s) (o : Uuid) :
    Serializable o s.shared := by
  refine Protocol.invariant serviceSystem_keeps (I := Serializable o) (fun s hs rows hrows => ?_)
    (fun t seen s s' hinv hs hstep => serializable_step hinv hs hstep) h
  have hempty : Fresh ([] : Db) := fun _ _ => rfl
  refine ⟨[], ?_, ?_, hempty.consistent, fun _ _ => rfl⟩
  · rw [committersOf, hs.2]
    rfl
  · rw [hs.1.stream_nil hrows]
    exact ⟨rfl, fun _ => rfl⟩

end SerialRun

/-! ## Losing a race -/

theorem readOnly_field {α : Type} (o : Option α) : (field o).ReadOnly := by
  cases o <;> trivial

/-- A save of an order is one transaction. -/
theorem oneTx_save (agg : OrderAggregate) (correlationId : String) :
    (OrderEventStoreRepository.save agg correlationId).OneTx := by
  unfold OrderEventStoreRepository.save Saganova.save
  split
  · trivial
  · rw [randomUUIDs_bind]
    refine fun ids => Proc.OneTx.bind (Proc.OneTx.tryCatch (Proc.oneTx_transaction _) fun _ => ?_)
      fun _ => ?_
    · trivial
    · trivial

theorem oneTx_createOrder (command : CreateOrderCommand) :
    (CreateOrderHandler.execute command).OneTx := by
  unfold CreateOrderHandler.execute
  rw [now_bind]
  refine fun time => Proc.OneTx.tryCatch ((oneTx_save _ _).bind fun _ => trivial) fun err => ?_
  cases err <;> trivial

theorem oneTx_confirmOrder (command : ConfirmOrderCommand) :
    (ConfirmOrderHandler.execute command).OneTx := by
  unfold ConfirmOrderHandler.execute OrderEventStoreRepository.loadAggregate Saganova.loadAggregate
  rw [Proc.select_bind]
  intro db
  dsimp only
  cases hydrateFrom .order command.orderId (loadStream .order db command.orderId) with
  | none => trivial
  | some aggregate =>
    simp only [now_bind]
    intro time
    beta_reduce
    split
    · trivial
    · trivial
    · exact (oneTx_save _ _).bind fun _ => trivial

theorem oneTx_cancelOrder (command : CancelOrderCommand) :
    (CancelOrderHandler.execute command).OneTx := by
  unfold CancelOrderHandler.execute OrderEventStoreRepository.loadAggregate Saganova.loadAggregate
  rw [Proc.select_bind]
  intro db
  dsimp only
  cases hydrateFrom .order command.orderId (loadStream .order db command.orderId) with
  | none => trivial
  | some aggregate =>
    simp only [now_bind]
    intro time
    beta_reduce
    split
    · trivial
    · trivial
    · exact (oneTx_save _ _).bind fun _ => trivial

/-- An execution of an order handler opens one transaction at most. -/
theorem oneTx_order (r : Record CommandEnvelope) : (code (.command .order r)).OneTx := by
  have hcommit : (commitOffsets r.topic r.partition (r.offset + 1)).ReadOnly :=
    fun reply => Proc.readOnly_ofExcept reply
  refine Proc.OneTx.bind (p := OrderKafkaConsumer.dispatch r.value) ?_ fun _ => hcommit
  unfold OrderKafkaConsumer.dispatch
  simp only
  split
  · exact (readOnly_field _).bind_oneTx fun _ => (readOnly_field _).bind_oneTx fun _ =>
      (readOnly_field _).bind_oneTx fun _ => oneTx_createOrder _
  · exact (readOnly_field _).bind_oneTx fun _ => (readOnly_field _).bind_oneTx fun _ =>
      oneTx_confirmOrder _
  · exact (readOnly_field _).bind_oneTx fun _ => (readOnly_field _).bind_oneTx fun _ =>
      oneTx_cancelOrder _
  · trivial

/-! ## Linearizability -/

/-- What holds of a state of the system, and of the next steps of the order handlers in it. -/
structure OrdersLinearizable (s : LockState) : Prop where
  /-- the stream is one of `orderStreams`, and the committing executions
  come to it one after another -/
  stream : ∀ o, ∃ rows, HasStream .order s.base.shared.db o rows ∧ eventTypes rows ∈ orderStreams ∧
    ∃ es : List Execution, es.map (·.record) = committersOf o s.base.shared ∧
      HasStream .order (serially es).db o rows
  /-- an execution that commits commits one event of one order -/
  commits : ∀ i job r w s', s.base.jobs i = some job → job.task = .command .order r →
    LockStep serviceSystem s i (some (.commit w)) s' → ∃ o rows row,
      HasStream .order s.base.shared.db o rows ∧
      HasStream .order s'.base.shared.db o (rows ++ [row]) ∧
      committersOf o s'.base.shared = committersOf o s.base.shared ++ [r]
  /-- and nothing else that it does changes a row -/
  unchanged : ∀ i job r c s', s.base.jobs i = some job → job.task = .command .order r →
    LockStep serviceSystem s i c s' → (∀ w, c ≠ some (.commit w)) →
      s'.base.shared.db = s.base.shared.db
  /-- an execution that lost, its transaction aborted, changes no row and commits
  nothing any more; nor does one that has committed -/
  lost : ∀ i job r c c' s' s₁ c₁ s₂, s.base.jobs i = some job → job.task = .command .order r →
    LockStep serviceSystem s i c s' → c = some c' → c'.EndsTx →
    LockDuring serviceSystem i s' s₁ → LockStep serviceSystem s₁ i c₁ s₂ →
    (∀ t, c₁ ≠ some (.spawn t)) →
      (∀ w, c₁ ≠ some (.commit w)) ∧ s₂.base.shared.db = s₁.base.shared.db

theorem commits_event {s s' : State} {i : ℕ} {job : Job Row Err Act.Reply Task}
    {r : Record CommandEnvelope} {w : Db} (h : Reach serviceSystem anything s)
    (hj : s.jobs i = some job) (htask : job.task = .command .order r)
    (hstep : Step serviceSystem s i (.commit w) s') : ∃ o rows row,
      HasStream .order s.shared.db o rows ∧ HasStream .order s'.shared.db o (rows ++ [row]) ∧
      committersOf o s'.shared = committersOf o s.shared ++ [r] := by
  have hholds := Protocol.sound serviceSystem_keeps h
  obtain ⟨job', hj', hguar⟩ : ∃ job, s.jobs i = some job ∧
      ServiceStep job.task job.seen s.shared s'.shared := by
    rcases hholds.guar (serviceSystem_keeps (G := anything)) hstep trivial with heq | hguar
    · cases hstep with
      | commit hj he => exact absurd (congrArg (·.trace) heq) (by simp)
    · exact hguar
  cases hj.symm.trans hj'
  rw [htask] at hguar
  generalize hs' : s'.shared = sh at hguar
  cases hguar with
  | acted a res _ =>
    cases hstep with
    | commit _ _ =>
      have htrace := congrArg (·.trace) hs'
      cases htrace
  | sagaSaved row ht _ _ => cases ht
  | @appended svc o rows row oid db w' happ hstock hsaved hpersisted =>
    obtain ⟨record, hrecord⟩ := happ.task
    cases hrecord
    cases hstock
    have happended := appended_of_saved (t := .command .order r) (fun _ _ => rfl) hsaved
    refine ⟨o, rows, row, happended.before, happended.after, ?_⟩
    rw [committersOf_commit]
    simp [commitOf, any_isEventOf hpersisted]

/-- **Order handlers are linearizable.** -/
theorem orderLinearizable (s : LockState) (h : LockReach serviceSystem anything s) :
    OrdersLinearizable s where
  stream := by
    intro o
    obtain ⟨-, hreach⟩ := h.atomic
    obtain ⟨rows, hrows⟩ := (Protocol.sound serviceSystem_keeps hreach).inv.stream .order o
    obtain ⟨es, hes, hserial⟩ := serializable hreach o rows hrows
    exact ⟨rows, hrows, orderStreams_hold hreach o rows hrows, es, hes, hserial.stream⟩
  commits := by
    intro i job r w s' hj htask hstep
    obtain ⟨hinv, hreach⟩ := h.atomic
    rcases hinv.atomic hstep with ⟨hnone, -⟩ | ⟨c, hc, hbase⟩
    · cases hnone
    · cases hc
      exact commits_event hreach hj htask hbase
  unchanged := fun _ _ _ _ _ _ _ hstep hc => h.db_of_ne_commit hstep hc
  lost := by
    intro i job r c c' s' s₁ c₁ s₂ hj htask hstep hc hends hduring hstep₁ hc₁
    have hafter := h.afterTx (T := fun t => ∃ r, t = .command .order r)
      (fun t ⟨r, ht⟩ => ht ▸ oneTx_order r)
      (fun job' hj' => by cases hj.symm.trans hj'; exact ⟨r, htask⟩)
      hstep ⟨c', hc, hends⟩ hduring hstep₁ hc₁
    exact ⟨fun w hw => hafter.1 _ hw (.inl ⟨w, rfl⟩), hafter.2⟩

/-- A checkout of one item, its confirmation, and its cancellation. -/
def createdOnce : Task := .command .order (commandRecord 0 .createOrder
  { orderId := some order₁, customerId := some customer₁
    items := some [{ sku := "A", qty := 1, unitPriceCents := 500 }] })

def confirmedLate : Task := .command .order (commandRecord 1 .confirmOrder
  { orderId := some order₁, paymentId := some payment₁ })

def cancelledFirst : Task := .command .order (commandRecord 2 .cancelOrder
  { orderId := some order₁, reason := some "out of stock" })

/-- Both load the created order; the cancellation commits. -/
def cancelledMeanwhile : State :=
  let created := State.idle (serviceSystem.runs allWell [createdOnce] ⟨[], []⟩)
  let deciding := (created.set 0 (some ⟨confirmedLate, [], code confirmedLate⟩)).resume allWell 0 2
  (deciding.set 1 (some ⟨cancelledFirst, [], code cancelledFirst⟩)).resume allWell 1 4

theorem cancelledMeanwhile_reached : Reach serviceSystem anything cancelledMeanwhile := by
  have hcreated : Reach serviceSystem anything
      (.idle (serviceSystem.runs allWell [createdOnce] ⟨[], []⟩)) :=
    Reach.runs _ (.start ⟨fun _ _ => rfl, rfl⟩) (fun _ _ _ => trivial) fun _ _ _ _ => trivial
  have hdeciding := (hcreated.step (.spawn (i := 0) (t := confirmedLate) rfl trivial) trivial).resume
    allWell (fun _ _ _ => trivial) 0 2
  exact (hdeciding.step (.spawn (i := 1) (t := cancelledFirst) rfl trivial) trivial).resume
    allWell (fun _ _ _ => trivial) 1 4

/-- The confirmation lost: its insert fails, and the order stays cancelled. -/
theorem orderLinearizable_race : ∃ s : LockState,
    (s.base.jobs 0).map (·.task) = some confirmedLate ∧
    (Store.row s.base.shared.db (.eventStore .order order₁ 2)).map (fun r => OrderEvent.type r.event) =
      some .orderCancelled ∧
    (Store.row s.base.shared.db (.eventStore .order order₁ 3)).isNone ∧ OrdersLinearizable s := by
  have hreach := cancelledMeanwhile_reached.resume allWell (fun _ _ _ => trivial) 0 2
  refine ⟨⟨cancelledMeanwhile.resume allWell 0 2, fun _ => none⟩, ?_, ?_, ?_,
    orderLinearizable _ hreach.withLocks⟩
  · decide +kernel
  · decide +kernel
  · decide +kernel

end Saganova
