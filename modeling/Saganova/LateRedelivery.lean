import Saganova.OrderLinearization
import Saganova.PaymentRefunds
import Saganova.StockFloor

/-!
# Late redelivery

A command that was executed once and is delivered again, however late.  Each
handler has its own guard against that: an event whose sequence is taken, a
status that is final, a projection row that exists.  What an execution leaves
behind, if it returns normally, is `Absorbed`; no other command undoes that
(`Absorbed.step`), and where it holds the handler changes nothing
(`Absorbed.again`).

A second release takes its lines from the counters before it looks at the
status.  The statement may fail where other reservations asked for less than
nothing (`lateRelease_fails`).
-/

namespace Saganova

open Concurrency

/-! ## Executions -/

section Execute

variable (answer : ℕ → (a : Act) → Act.Reply a) (svc : Service)

/-- The handler of a command, run alone to its end. -/
def execute (r : Record CommandEnvelope) (s : Shared) : Except Err Unit × Shared :=
  Proc.run answer (.command svc r) (consumer svc r.value) s

/-- One command after another, whatever comes of each. -/
def executeAll (rs : List (Record CommandEnvelope)) (s : Shared) : Shared :=
  rs.foldl (fun s r => (execute answer svc r s).2) s

end Execute

/-- The gateway's calls return, and ids are drawn that no outbox row has. -/
structure CallsReturn (answer : ℕ → (a : Act) → Act.Reply a) (db : Db) : Prop where
  authorize : ∀ k params, ∃ result, (answer k (.authorize params)).answer = .ok result
  refund : ∀ k pspReference amountCents reason, ∃ result,
    answer k (.refund pspReference amountCents reason) = .ok result
  randomUUID : ∀ k svc n, Store.row db (.outbox svc (answer k .randomUUIDs n)) = none

/-! ## What an execution leaves behind -/

/-- The state accepts no further event. -/
def Closed : (svc : Service) → svc.AggregateState → Prop
  | .order, (state : OrderState) => state.status = .cancelled ∨ state.status = .confirmed
  | .payment, (state : PaymentState) => state.status ≠ .authorized
  | .inventory, (state : StockAggregateState) => state.status ≠ .reserved

/-- The aggregate has events, and will have no others. -/
def ClosedStream (svc : Service) (db : Db) (id : String) (rows : List (EventStoreRow svc)) : Prop :=
  HasStream svc db id rows ∧ rows ≠ [] ∧ Closed svc (replay svc rows)

/-- The command has nothing left to do. -/
inductive Absorbed (db : Db) : Service → CommandEnvelope → Prop
  | created {e : CommandEnvelope} {o customerId : Uuid} {items : List OrderLineItem}
      {rows : List (EventStoreRow .order)} : e.type = .createOrder → e.payload.orderId = some o →
      e.payload.customerId = some customerId → e.payload.items = some items →
      HasStream .order db o rows → rows ≠ [] → Absorbed db .order e
  | confirmed {e : CommandEnvelope} {o paymentId : Uuid} {rows : List (EventStoreRow .order)} :
      e.type = .confirmOrder → e.payload.orderId = some o → e.payload.paymentId = some paymentId →
      ClosedStream .order db o rows → Absorbed db .order e
  | cancelled {e : CommandEnvelope} {o : Uuid} {reason : String}
      {rows : List (EventStoreRow .order)} :
      e.type = .cancelOrder → e.payload.orderId = some o → e.payload.reason = some reason →
      ClosedStream .order db o rows → Absorbed db .order e
  | reserved {e : CommandEnvelope} {o : Uuid} {lines : List ReservationLine}
      {rows : List (EventStoreRow .inventory)} : e.type = .reserveStock →
      e.payload.orderId = some o → e.payload.lines = some lines →
      HasStream .inventory db o rows → rows ≠ [] → Absorbed db .inventory e
  | released {e : CommandEnvelope} {o reservationId : Uuid}
      {rows : List (EventStoreRow .inventory)} : e.type = .releaseInventory →
      e.payload.orderId = some o → e.payload.reservationId = some reservationId →
      ClosedStream .inventory db o rows → Absorbed db .inventory e
  | charged {e : CommandEnvelope} {command : AuthorizePaymentCommand} {p : Uuid} :
      IsAuthorizePayment e command → Store.row db (.paymentOfOrder command.orderId) = some p →
      Absorbed db .payment e
  | refunded {e : CommandEnvelope} {command : RefundPaymentCommand} {pspReference : String}
      {rows : List (EventStoreRow .payment)} : IsRefundPayment e command →
      ClosedStream .payment db command.paymentId rows →
      (replay .payment rows).pspReference.filter (· ≠ "") = some pspReference →
      Absorbed db .payment e
  /-- a command that other services own -/
  | foreign {svc : Service} {e : CommandEnvelope} : consumer svc e = Pure.pure () → Absorbed db svc e

section Step

variable {t : Task} {seen : Db} {s s' : Shared} {svc : Service} {id : String}
  {rows : List (EventStoreRow svc)} {r : EventStoreRow svc}

/-- Events are appended to streams that are not closed. -/
theorem Appends.not_closed (happ : Appends s t svc id rows r) (hne : rows ≠ []) :
    ¬ Closed svc (replay svc rows) := by
  cases happ with
  | created => exact absurd rfl hne
  | confirmed _ _ _ _ hstatus =>
    show ¬ ((replay .order _).status = .cancelled ∨ (replay .order _).status = .confirmed)
    rw [hstatus]
    exact nofun
  | cancelled _ _ _ _ hpending => exact hpending
  | charged => exact absurd rfl hne
  | refunded _ _ _ hstatus => exact not_not.mpr hstatus
  | reserved => exact absurd rfl hne
  | failed => exact absurd rfl hne
  | released _ _ _ hstatus => exact not_not.mpr hstatus

theorem ClosedStream.step (hrows : ClosedStream svc s.db id rows) (h : ServiceStep t seen s s') :
    ClosedStream svc s'.db id rows := by
  obtain ⟨hstream, hne, hclosed⟩ := hrows
  refine ⟨?_, hne, hclosed⟩
  rcases h.stream_cases svc with hsame | ⟨id', rows', r, happ, happended⟩
  · exact (hsame id rows).mpr hstream
  · by_cases heq : id = id'
    · subst heq
      rw [hstream.unique happended.before] at hne hclosed
      exact absurd hclosed (happ.not_closed hne)
    · exact (happended.others fun hsame => heq hsame.2).mpr hstream

/-- **No command undoes what another one did.** -/
theorem Absorbed.step {e : CommandEnvelope} (he : Absorbed s.db svc e) (hdb : Consistent s.db)
    (h : ServiceStep t seen s s') : Absorbed s'.db svc e := by
  have hgrow := h.grows hdb
  cases he with
  | created htype hid hcustomer hitems hrows hne =>
    obtain ⟨more, hmore⟩ := hgrow.stream hrows
    exact .created htype hid hcustomer hitems hmore (by simp [hne])
  | confirmed htype hid hpayment hclosed => exact .confirmed htype hid hpayment (hclosed.step h)
  | cancelled htype hid hreason hclosed => exact .cancelled htype hid hreason (hclosed.step h)
  | reserved htype hid hlines hrows hne =>
    obtain ⟨more, hmore⟩ := hgrow.stream hrows
    exact .reserved htype hid hlines hmore (by simp [hne])
  | released htype hid hreservation hclosed =>
    exact .released htype hid hreservation (hclosed.step h)
  | charged hcommand hindex => exact .charged hcommand (hgrow.index hindex)
  | refunded hcommand hclosed hpsp => exact .refunded hcommand (hclosed.step h) hpsp
  | foreign hpure => exact .foreign hpure

end Step

/-! ## Executed again -/

section Again

variable {answer : ℕ → (a : Act) → Act.Reply a} {t : Task} {s : Shared} {o : Uuid}

/-- The handler returns and has changed no row. -/
def Unchanged (s : Shared) (res : Except Err Unit) (s' : Shared) : Prop :=
  res = .ok () ∧ s'.db = s.db

theorem after_field {α β : Type} {Q : Except Err β → Shared → Prop} {o : Option α} {a : α}
    (ho : o = some a) {f : α → Handler β} (h : (f a).After answer t Q s) :
    (field o >>= f).After answer t Q s := by
  subst ho
  exact h

/-- Loading replays the stream. -/
theorem after_loadAggregate {α : Type} {Q : Except Err α → Shared → Prop} (svc : Service)
    {id : String} {rows : List (EventStoreRow svc)} (hrows : HasStream svc s.db id rows)
    {f : Option svc.Aggregate → Handler α}
    (h : (f (if rows = [] then none else some (loaded svc id rows))).After answer t Q s) :
    (loadAggregate svc id >>= f).After answer t Q s := by
  show (f (hydrateFrom svc id (loadStream svc s.db id))).After answer t Q s
  rwa [hydrateFrom_loadStream hrows]

/-- `save` of a new event: its transaction commits, or its error is passed on. -/
theorem after_save (svc : Service) {Q : Except Err svc.Aggregate → Shared → Prop}
    {id correlationId : String} {rows : List (EventStoreRow svc)} {event : svc.Event} {time : Time}
    (hok : ∀ k w, (persist svc (withEvent svc id rows event time) correlationId
        (answer k .randomUUIDs)).exec s.db [] = .ok ((), w) →
      Q (.ok (withEvent svc id rows event time).markEventsAsCommitted)
        ((s.acted t .randomUUIDs (answer k .randomUUIDs)).commit t w))
    (herror : ∀ k e, (persist svc (withEvent svc id rows event time) correlationId
        (answer k .randomUUIDs)).exec s.db [] = .error e →
      Q (.error (toConcurrencyError svc (withEvent svc id rows event time) e))
        (s.acted t .randomUUIDs (answer k .randomUUIDs))) :
    (save svc (withEvent svc id rows event time) correlationId).After answer t Q s := by
  unfold save
  rw [if_neg (by simp), randomUUIDs_bind]
  refine Proc.after_act (Proc.after_bind _ _ (Proc.after_tryCatch _ _ (Proc.after_tx ?_ ?_)))
  · exact fun w hexec => hok _ w hexec
  · exact fun e hexec => herror _ e hexec

/-- The insert of a sequence that is taken fails. -/
theorem exec_persist_taken {svc : Service} {id correlationId : String}
    {rows : List (EventStoreRow svc)} {event : svc.Event} {time : Time} {ids : ℕ → Uuid} {db : Db}
    (h : (Store.row db (.eventStore svc id (rows.length + 1))).isSome) :
    (persist svc (withEvent svc id rows event time) correlationId ids).exec db [] =
      .error .uniqueViolation := by
  obtain ⟨row, hrow⟩ := Option.isSome_iff_exists.mp h
  unfold persist
  rw [withEvent_uncommittedEvents, expectedVersion_withEvent, withEvent_id]
  simp only [appendEvents, Tx.exec_bind, insert, Tx.exec_lock, List.nil_append, hrow]
  rfl

theorem createNew_eq (o customerId : Uuid) (items : List OrderLineItem) (time : Time) :
    OrderAggregate.createNew o customerId items time = withEvent .order o []
      (.orderCreated { orderId := o, customerId, items, totalCents := OrderAggregate.totalCents items })
      time := rfl

/-- A second creation finds its sequence taken, which is taken for a duplicate. -/
theorem again_createOrder {command : CreateOrderCommand} {rows : List (EventStoreRow .order)}
    (hrows : HasStream .order s.db command.orderId rows) (hne : rows ≠ []) :
    (CreateOrderHandler.execute command).After answer t (Unchanged s) s := by
  have htaken : (Store.row s.db (.eventStore .order command.orderId 1)).isSome := by
    rw [hrows.2, List.getElem?_eq_getElem (List.length_pos_iff.mpr hne)]
    rfl
  unfold CreateOrderHandler.execute OrderEventStoreRepository.save
  simp only [now_bind, createNew_eq]
  refine Proc.after_act (Proc.after_tryCatch _ _ (Proc.after_bind _ _ ?_))
  refine after_save .order (fun ids w hexec => ?_) fun ids e hexec => ?_
  · rw [exec_persist_taken htaken] at hexec
    cases hexec
  · rw [exec_persist_taken htaken] at hexec
    cases hexec
    exact ⟨rfl, rfl⟩

/-- A confirmation or cancellation of an order that is closed is a duplicate. -/
theorem again_confirmOrder {command : ConfirmOrderCommand} {rows : List (EventStoreRow .order)}
    (hrows : ClosedStream .order s.db command.orderId rows) :
    (ConfirmOrderHandler.execute command).After answer t (Unchanged s) s := by
  obtain ⟨hstream, hne, hclosed⟩ := hrows
  have hstatus : (loaded .order command.orderId rows).state.status ≠ .created := by
    show (replay .order rows).status ≠ .created
    rcases (hclosed : (replay .order rows).status = .cancelled ∨ _) with h | h
    · simp [h]
    · simp [show (replay .order rows).status = .confirmed from h]
  refine after_loadAggregate .order hstream ?_
  simp only [if_neg hne, now_bind]
  refine Proc.after_act ?_
  rw [OrderAggregate.confirm, if_pos hstatus]
  exact ⟨rfl, rfl⟩

theorem again_cancelOrder {command : CancelOrderCommand} {rows : List (EventStoreRow .order)}
    (hrows : ClosedStream .order s.db command.orderId rows) :
    (CancelOrderHandler.execute command).After answer t (Unchanged s) s := by
  obtain ⟨hstream, hne, hclosed⟩ := hrows
  refine after_loadAggregate .order hstream ?_
  simp only [if_neg hne, now_bind]
  refine Proc.after_act ?_
  have hstatus : (loaded .order command.orderId rows).state.status = .cancelled ∨
      (loaded .order command.orderId rows).state.status = .confirmed := hclosed
  rw [OrderAggregate.cancel, if_pos hstatus]
  exact ⟨rfl, rfl⟩

/-- An order with a reservation, released or failed too, is not reserved again. -/
theorem again_reserveStock {command : ReserveStockCommand} {rows : List (EventStoreRow .inventory)}
    (hdb : Consistent s.db) (hrows : HasStream .inventory s.db command.orderId rows)
    (hne : rows ≠ []) : (ReserveStockHandler.execute command).After answer t (Unchanged s) s := by
  obtain ⟨row, hrow, -⟩ := (hdb.projected hrows).some_of_ne hne
  refine Proc.after_read ?_
  simp only [hrow]
  exact ⟨rfl, rfl⟩

/-- A second release is rolled back, where taking its lines away once more does
not fail. -/
theorem again_releaseInventory {command : ReleaseInventoryCommand}
    {rows : List (EventStoreRow .inventory)} (hdb : Consistent s.db) (hfloor : StockFloor s.db)
    (hrows : ClosedStream .inventory s.db command.orderId rows) :
    (ReleaseInventoryHandler.execute command).After answer t (Unchanged s) s := by
  obtain ⟨hstream, hne, hclosed⟩ := hrows
  obtain ⟨db', w, hrelease, -⟩ := hfloor.release hdb hstream
  refine after_loadAggregate .inventory hstream ?_
  simp only [if_neg hne, now_bind, randomUUIDs_bind]
  refine Proc.after_act (Proc.after_act (Proc.after_tryCatch _ _ ?_))
  have hexec : ∀ time ids, (ReleaseInventoryHandler.transaction
      (loaded .inventory command.orderId rows) command.correlationId time ids).exec s.db [] =
        .error (.reservationAlreadyFinalized command.orderId (replay .inventory rows).status) := by
    intro time ids
    unfold ReleaseInventoryHandler.transaction
    rw [Tx.exec_bind]
    show (Except.bind ((StockRepository.releaseLinesWithinTransaction
      (replay .inventory rows).lines).exec s.db []) _) = _
    rw [hrelease]
    unfold StockAggregate.release
    rw [if_pos (show (loaded .inventory command.orderId rows).state.status ≠ .reserved from hclosed)]
    rfl
  refine Proc.after_tx (fun w hok => ?_) fun e herror => ?_
  · cases (hexec _ _).symm.trans hok
  · cases (hexec _ _).symm.trans herror
    exact ⟨rfl, rfl⟩

/-- An order that has a payment is not charged again. -/
theorem again_authorizePayment {command : AuthorizePaymentCommand} {p : Uuid}
    (hdb : Consistent s.db) (hindex : Store.row s.db (.paymentOfOrder command.orderId) = some p) :
    (AuthorizePaymentHandler.execute command).After answer t (Unchanged s) s := by
  obtain ⟨row, hrow, -⟩ := (hdb.index _ _).mp hindex
  refine Proc.after_read ?_
  simp only [hindex, hrow, Option.bind_eq_bind, Option.bind_some]
  exact ⟨rfl, rfl⟩

/-- A payment that is refunded is asked of the gateway again, and left as it is. -/
theorem again_refundPayment {command : RefundPaymentCommand} {pspReference : String}
    {rows : List (EventStoreRow .payment)}
    (hrefund : ∀ k amountCents reason, ∃ result,
      answer k (.refund pspReference amountCents reason) = .ok result)
    (hrows : ClosedStream .payment s.db command.paymentId rows)
    (hpsp : (replay .payment rows).pspReference.filter (· ≠ "") = some pspReference) :
    (RefundPaymentHandler.execute command).After answer t (Unchanged s) s := by
  obtain ⟨hstream, hne, hclosed⟩ := hrows
  refine after_loadAggregate .payment hstream ?_
  simp only [if_neg hne]
  have hpsp' : (loaded .payment command.paymentId rows).state.pspReference.filter (· ≠ "") =
      some pspReference := hpsp
  rw [hpsp']
  refine Proc.after_bind _ _ (Proc.after_tryCatch _ _ ?_)
  rw [PaymentGateway.refund_bind]
  refine Proc.after_act ?_
  obtain ⟨result, hresult⟩ := hrefund s.trace.length command.amountCents (some "Saga compensation")
  rw [hresult, Proc.ofExcept_ok, pure_bind, now_bind]
  refine Proc.after_act ?_
  rw [PaymentAggregate.refund,
    if_pos (show (loaded .payment command.paymentId rows).state.status ≠ .authorized from hclosed)]
  exact ⟨rfl, rfl⟩

end Again

/-! ## Executed for the first time -/

section First

variable {answer : ℕ → (a : Act) → Act.Reply a} {t : Task} {s : Shared}

/-- What holds if the handler returns. -/
def OnReturn (p : Db → Prop) : Except Err Unit → Shared → Prop
  | .ok _, s => p s.db
  | .error _, _ => True

theorem after_field_return {α : Type} {p : Db → Prop} {o : Option α} {f : α → Handler Unit}
    (h : ∀ a, o = some a → (f a).After answer t (OnReturn p) s) :
    (field o >>= f).After answer t (OnReturn p) s := by
  cases o with
  | none => trivial
  | some a => exact h a rfl

/-- A save that commits, after the stock was moved, has appended its event. -/
theorem stream_of_runs {svc : Service} {id correlationId : String} {rows : List (EventStoreRow svc)}
    {event : svc.Event} {time : Time} {ids : ℕ → Uuid} {db w : Db} (hdb : Consistent s.db)
    (hstock : OnlyStock s.db db) {more : List (EventStoreRow svc)}
    (hrows : HasStream svc s.db id (rows ++ more))
    (hkeep : rows ≠ [] → KeepsColumns svc (replay svc rows) (svc.when (replay svc rows) event))
    (h : Tx.Runs db (persist svc (withEvent svc id rows event time) correlationId ids) () (w ++ s.db)) :
    HasStream svc (w ++ s.db) id (rows ++ [eventRow svc event time correlationId]) ∧
      Consistent (w ++ s.db) := by
  have hdb' : Consistent db := hdb.beside fun _ hk => hstock.beside hk
  have hsaved := saved_of_runs hdb' (hstock.stream.mpr hrows) hkeep h
  exact ⟨hsaved.stream', hsaved.consistent hdb'⟩

theorem stream_of_save {svc : Service} {id correlationId : String} {rows : List (EventStoreRow svc)}
    {event : svc.Event} {time : Time} {ids : ℕ → Uuid} {w : Db} (hdb : Consistent s.db)
    {more : List (EventStoreRow svc)} (hrows : HasStream svc s.db id (rows ++ more))
    (hkeep : rows ≠ [] → KeepsColumns svc (replay svc rows) (svc.when (replay svc rows) event))
    (hexec : (persist svc (withEvent svc id rows event time) correlationId ids).exec s.db [] =
      .ok ((), w)) :
    HasStream svc (w ++ s.db) id (rows ++ [eventRow svc event time correlationId]) ∧
      Consistent (w ++ s.db) :=
  stream_of_runs hdb (fun _ _ => rfl) hrows hkeep (Tx.runs_of_exec hexec)

theorem exec_insert {k : Key} {row : Row k} {db w : Db} (h : Store.row (w ++ db) k = none) :
    (insert k row).exec db w = .ok ((), ⟨k, row⟩ :: w) := by
  unfold insert
  rw [Tx.exec_lock, h]
  rfl

/-- With its sequence and its id free, a save of an order fails at its total only. -/
theorem persist_order_error {o correlationId : String} {event : OrderEvent} {time : Time}
    {ids : ℕ → Uuid} {db : Db} {e : Err} (hfree : Store.row db (.eventStore .order o 1) = none)
    (hid : Store.row db (.outbox .order (ids 1)) = none)
    (h : (persist .order (withEvent .order o [] event time) correlationId ids).exec db [] = .error e) :
    ∃ message, e = .queryFailed message := by
  unfold persist at h
  rw [withEvent_uncommittedEvents, expectedVersion_withEvent, withEvent_id] at h
  have houtbox : ∀ row : EventStoreRow .order,
      Store.row ([⟨.eventStore .order o 1, row⟩] ++ db : Db) (.outbox .order (ids 1)) = none :=
    fun row => (Store.row_cons_ne _ _ (by simp)).trans hid
  simp only [List.length_nil, appendEvents, Tx.exec_bind, Except.bind,
    exec_insert (w := []) hfree, exec_insert (houtbox _), Tx.exec_pure] at h
  revert h
  show (OrderProjectionRepository.upsertWithinTransaction _).exec db _ = .error e → _
  unfold OrderProjectionRepository.upsertWithinTransaction integer
  rw [Tx.exec_bind]
  split
  · intro h
    simp only [Tx.exec_pure, Except.bind, upsert, Tx.exec_lock] at h
    split at h
    · cases h
    · rename_i hnone
      rw [exec_insert hnone] at h
      cases h
  · rintro ⟨⟩
    exact ⟨_, rfl⟩

theorem return_of_unchanged {p : Handler Unit} {q : Db → Prop}
    (h : p.After answer t (Unchanged s) s) (hq : q s.db) : p.After answer t (OnReturn q) s := by
  refine h.mono fun res s' hres => ?_
  obtain ⟨rfl, hdb⟩ := hres
  show q s'.db
  rwa [hdb]

/-- A creation that returns left an event: its own, or it found one. -/
theorem first_createOrder {command : CreateOrderCommand} (hdb : Consistent s.db)
    (hids : ∀ k n, Store.row s.db (.outbox .order (answer k .randomUUIDs n)) = none) :
    (CreateOrderHandler.execute command).After answer t
      (OnReturn fun db => ∃ rows, HasStream .order db command.orderId rows ∧ rows ≠ []) s := by
  obtain ⟨rows, hrows⟩ := hdb.stream .order command.orderId
  by_cases hne : rows = []
  · subst hne
    unfold CreateOrderHandler.execute OrderEventStoreRepository.save
    simp only [now_bind, createNew_eq]
    refine Proc.after_act (Proc.after_tryCatch _ _ (Proc.after_bind _ _ ?_))
    refine after_save .order (fun k w hexec => ?_) fun k e hexec => ?_
    · exact ⟨_, (stream_of_save hdb hrows (fun h => absurd rfl h) hexec).1, by simp⟩
    · obtain ⟨message, rfl⟩ := persist_order_error hrows.next (hids k 1) hexec
      trivial
  · exact return_of_unchanged (again_createOrder hrows hne) ⟨rows, hrows, hne⟩

/-- An order that is past its creation is closed. -/
theorem closed_of_ne_created {rows : List (EventStoreRow .order)} (hne : rows ≠ [])
    (h : (replay .order rows).status ≠ .created) : Closed .order (replay .order rows) := by
  obtain ⟨init, r, rfl⟩ : ∃ init r, rows = init ++ [r] :=
    ⟨rows.dropLast, rows.getLast hne, (List.dropLast_append_getLast hne).symm⟩
  show (replay .order (init ++ [r])).status = .cancelled ∨ (replay .order (init ++ [r])).status = .confirmed
  rw [status_snoc] at h ⊢
  cases hevent : r.event with
  | orderCreated p => exact absurd (by rw [hevent]) h
  | orderConfirmed p => exact .inr rfl
  | orderCancelled p => exact .inl rfl

theorem first_confirmOrder {command : ConfirmOrderCommand} (hdb : Consistent s.db) :
    (ConfirmOrderHandler.execute command).After answer t
      (OnReturn fun db => ∃ rows, ClosedStream .order db command.orderId rows) s := by
  obtain ⟨rows, hrows⟩ := hdb.stream .order command.orderId
  have hmore : HasStream .order s.db command.orderId (rows ++ []) := by rwa [List.append_nil]
  by_cases hne : rows = []
  · refine after_loadAggregate .order hrows ?_
    rw [if_pos hne]
    trivial
  by_cases hstatus : (replay .order rows).status = .created
  · refine after_loadAggregate .order hrows ?_
    simp only [if_neg hne, now_bind]
    refine Proc.after_act ?_
    rw [confirm_created hstatus]
    refine Proc.after_bind _ _ (after_save .order (fun k w hexec => ?_) fun _ _ _ => trivial)
    refine ⟨_, (stream_of_save hdb hmore (fun _ => keeps_confirmed _ _) hexec).1, by simp, .inr ?_⟩
    rw [replay_snoc]
    rfl
  · have hclosed := closed_of_ne_created hne hstatus
    exact return_of_unchanged (again_confirmOrder ⟨hrows, hne, hclosed⟩) ⟨rows, hrows, hne, hclosed⟩

theorem first_cancelOrder {command : CancelOrderCommand} (hdb : Consistent s.db) :
    (CancelOrderHandler.execute command).After answer t
      (OnReturn fun db => ∃ rows, ClosedStream .order db command.orderId rows) s := by
  obtain ⟨rows, hrows⟩ := hdb.stream .order command.orderId
  have hmore : HasStream .order s.db command.orderId (rows ++ []) := by rwa [List.append_nil]
  by_cases hne : rows = []
  · refine after_loadAggregate .order hrows ?_
    rw [if_pos hne]
    trivial
  by_cases hclosed : (replay .order rows).status = .cancelled ∨
      (replay .order rows).status = .confirmed
  · exact return_of_unchanged (again_cancelOrder ⟨hrows, hne, hclosed⟩) ⟨rows, hrows, hne, hclosed⟩
  · refine after_loadAggregate .order hrows ?_
    simp only [if_neg hne, now_bind]
    refine Proc.after_act ?_
    rw [cancel_pending hclosed]
    refine Proc.after_bind _ _ (after_save .order (fun k w hexec => ?_) fun _ _ _ => trivial)
    refine ⟨_, (stream_of_save hdb hmore (fun _ => keeps_cancelled _ _) hexec).1, by simp, .inl ?_⟩
    rw [replay_snoc]
    rfl

/-- A payment that was charged is in the index. -/
theorem first_authorizePayment {command : AuthorizePaymentCommand} (hdb : Consistent s.db) :
    (AuthorizePaymentHandler.execute command).After answer t
      (OnReturn fun db => ∃ p, Store.row db (.paymentOfOrder command.orderId) = some p) s := by
  cases hindex : Store.row s.db (.paymentOfOrder command.orderId) with
  | some p => exact return_of_unchanged (again_authorizePayment hdb hindex) ⟨p, hindex⟩
  | none =>
    refine Proc.after_read ?_
    simp only [hindex, Option.bind_eq_bind, Option.bind_none, randomUUID_bind,
      PaymentGateway.authorize_bind]
    refine Proc.after_act (Proc.after_act ?_)
    generalize answer _ (.authorize _) = reply
    cases reply.answer with
    | error e => trivial
    | ok result =>
      rw [Proc.ofExcept_ok, pure_bind, now_bind]
      refine Proc.after_act ?_
      rw [aggregate_eq]
      obtain ⟨rows, hrows⟩ := hdb.stream .payment (answer s.trace.length .randomUUID)
      refine Proc.after_bind _ _ (after_save .payment (fun k w hexec => ?_) fun _ _ _ => trivial)
      obtain ⟨hstream, hdb'⟩ := stream_of_save hdb hrows (fun h => absurd rfl h) hexec
      have hindex' := index_of_stream (s := s.commit t w) hdb' hstream (by simp)
      rw [List.nil_append, show replay .payment [_] = PaymentAggregate.when _ _ from rfl, eventRow,
        event_orderId] at hindex'
      exact ⟨_, hindex'⟩

theorem first_refundPayment {command : RefundPaymentCommand} (hdb : Consistent s.db)
    (hrefund : ∀ k pspReference amountCents reason, ∃ result,
      answer k (.refund pspReference amountCents reason) = .ok result) :
    (RefundPaymentHandler.execute command).After answer t (OnReturn fun db => ∃ rows pspReference,
      ClosedStream .payment db command.paymentId rows ∧
        (replay .payment rows).pspReference.filter (· ≠ "") = some pspReference) s := by
  obtain ⟨rows, hrows⟩ := hdb.stream .payment command.paymentId
  have hmore : HasStream .payment s.db command.paymentId (rows ++ []) := by rwa [List.append_nil]
  by_cases hne : rows = []
  · refine after_loadAggregate .payment hrows ?_
    rw [if_pos hne]
    trivial
  cases hpsp : (replay .payment rows).pspReference.filter (· ≠ "") with
  | none =>
    refine after_loadAggregate .payment hrows ?_
    have hpsp' : (loaded .payment command.paymentId rows).state.pspReference.filter (· ≠ "") = none :=
      hpsp
    simp only [if_neg hne, hpsp']
    trivial
  | some pspReference =>
    by_cases hstatus : (replay .payment rows).status = .authorized
    · refine after_loadAggregate .payment hrows ?_
      have hpsp' : (loaded .payment command.paymentId rows).state.pspReference.filter (· ≠ "") =
          some pspReference := hpsp
      simp only [if_neg hne, hpsp']
      refine Proc.after_bind _ _ (Proc.after_tryCatch _ _ ?_)
      rw [PaymentGateway.refund_bind]
      refine Proc.after_act ?_
      obtain ⟨result, hresult⟩ := hrefund s.trace.length pspReference command.amountCents
        (some "Saga compensation")
      rw [hresult, Proc.ofExcept_ok, pure_bind, now_bind]
      refine Proc.after_act ?_
      rw [PaymentAggregate.refund, if_neg (not_not.mpr
        (show (loaded .payment command.paymentId rows).state.status = .authorized from hstatus))]
      show Proc.After answer t (OnReturn _) (Saganova.save .payment (withEvent .payment command.paymentId rows
        _ _) command.correlationId >>= fun _ => Pure.pure ()) _
      refine Proc.after_bind _ _ (after_save .payment (fun k w hexec => ?_) fun _ _ _ => trivial)
      refine ⟨_, pspReference, ⟨(stream_of_save hdb hmore (fun _ => keeps_refunded _ _) hexec).1,
        by simp, ?_⟩, ?_⟩
      · rw [replay_snoc]
        exact nofun
      · rw [replay_snoc]
        exact hpsp
    · exact return_of_unchanged (again_refundPayment (fun k => hrefund k _) ⟨hrows, hne, hstatus⟩ hpsp)
        ⟨rows, pspReference, ⟨hrows, hne, hstatus⟩, hpsp⟩

/-- A reservation that returns left an event: reserved, or failed. -/
theorem first_reserveStock {command : ReserveStockCommand} (hdb : Consistent s.db) :
    (ReserveStockHandler.execute command).After answer t
      (OnReturn fun db => ∃ rows, HasStream .inventory db command.orderId rows ∧ rows ≠ []) s := by
  obtain ⟨rows, hrows⟩ := hdb.stream .inventory command.orderId
  by_cases hne : rows = []
  · subst hne
    have hnone := (hdb.projected hrows).none_of_nil rfl
    refine Proc.after_read ?_
    simp only [hnone, randomUUID_bind, now_bind, randomUUIDs_bind]
    refine Proc.after_act (Proc.after_act (Proc.after_act (Proc.after_tryCatch _ _ ?_)))
    refine Proc.after_tx (fun w hexec => ?_) fun e _ => ?_
    · obtain ⟨_, db, hreserve, hsave⟩ := Tx.runs_bind.mp (Tx.runs_of_exec hexec)
      have hstock := onlyStock_incrementLines (runs_reserveLines.mp hreserve).2
      exact ⟨_, (stream_of_runs hdb hstock hrows (fun h => absurd rfl h)
        (runs_saveWithinTransaction.mp hsave)).1, by simp⟩
    · cases e with
      | insufficientStock sku reason =>
        show Proc.After answer t (OnReturn _) (.act .now _) _
        refine Proc.after_act (Proc.after_bind _ _ ?_)
        unfold InventoryEventStoreRepository.save
        rw [randomUUIDs_bind]
        refine Proc.after_act (Proc.after_bind _ _ (Proc.after_tx (fun w hexec => ?_) fun e _ => ?_))
        · exact ⟨_, (stream_of_runs hdb (fun _ _ => rfl) hrows (fun h => absurd rfl h)
            (runs_saveWithinTransaction.mp (Tx.runs_of_exec hexec))).1, by simp⟩
        · trivial
      | _ => trivial
  · exact return_of_unchanged (again_reserveStock hdb hrows hne) ⟨rows, hrows, hne⟩

/-- The error of a release that has already been made, or cannot be. -/
def IsFinalized : Err → Prop
  | .reservationAlreadyFinalized _ _ => True
  | _ => False

theorem releaseLines_avoids (lines : List ReservationLine) :
    (StockRepository.releaseLinesWithinTransaction lines).Avoids IsFinalized := by
  induction lines with
  | nil => trivial
  | cons line lines ih => exact (updateReserved_avoids (fun _ => id) _ _).bind fun _ => ih

/-- A release that is swallowed was not RESERVED any more. -/
theorem first_releaseInventory {command : ReleaseInventoryCommand} (hdb : Consistent s.db) :
    (ReleaseInventoryHandler.execute command).After answer t
      (OnReturn fun db => ∃ rows, ClosedStream .inventory db command.orderId rows) s := by
  obtain ⟨rows, hrows⟩ := hdb.stream .inventory command.orderId
  have hmore : HasStream .inventory s.db command.orderId (rows ++ []) := by rwa [List.append_nil]
  refine after_loadAggregate .inventory hrows ?_
  by_cases hne : rows = []
  · rw [if_pos hne]
    trivial
  simp only [if_neg hne, now_bind, randomUUIDs_bind]
  refine Proc.after_act (Proc.after_act (Proc.after_tryCatch _ _ ?_))
  by_cases hstatus : (loaded .inventory command.orderId rows).state.status ≠ .reserved
  · refine Proc.after_tx (fun w hexec => ?_) fun e _ => ?_
    · obtain ⟨_, db, -, hrest⟩ := Tx.runs_bind.mp (Tx.runs_of_exec hexec)
      unfold StockAggregate.release at hrest
      rw [if_pos hstatus] at hrest
      exact absurd hrest Tx.runs_throw
    · cases e with
      | reservationAlreadyFinalized _ _ => exact ⟨rows, hrows, hne, hstatus⟩
      | _ => trivial
  · refine Proc.after_tx (fun w hexec => ?_) fun e hexec => ?_
    · obtain ⟨_, db, hrelease, hrest⟩ := Tx.runs_bind.mp (Tx.runs_of_exec hexec)
      unfold StockAggregate.release at hrest
      rw [if_neg hstatus] at hrest
      refine ⟨_, (stream_of_runs hdb (onlyStock_releaseLines hrelease) hmore
        (fun _ => keeps_released _ _) (runs_saveWithinTransaction.mp hrest)).1, by simp, ?_⟩
      rw [replay_snoc]
      exact nofun
    · have havoids : ∀ time ids, (ReleaseInventoryHandler.transaction
          (loaded .inventory command.orderId rows) command.correlationId time ids).Avoids
            IsFinalized := by
        intro time ids
        refine Tx.Avoids.bind (releaseLines_avoids _) fun _ => ?_
        unfold StockAggregate.release
        rw [if_neg hstatus]
        exact saveWithinTransaction_avoids (fun _ _ => id) _ _ _
      have hnot := (havoids _ _).exec hexec
      cases e with
      | reservationAlreadyFinalized _ _ => exact absurd trivial hnot
      | _ => trivial

end First

/-! ## Every command -/

section Commands

variable {answer : ℕ → (a : Act) → Act.Reply a} {svc : Service} {r : Record CommandEnvelope}
  {s : Shared}

/-- An execution that returns leaves its command absorbed. -/
theorem absorbed_of_return (hdb : Consistent s.db) (hcalls : CallsReturn answer s.db) :
    (consumer svc r.value).After answer (.command svc r)
      (OnReturn fun db => Absorbed db svc r.value) s := by
  have hreturn : ∀ {p : Handler Unit} {q : Db → Prop}, p.After answer (.command svc r) (OnReturn q) s →
      (∀ db, q db → Absorbed db svc r.value) →
      p.After answer (.command svc r) (OnReturn fun db => Absorbed db svc r.value) s := by
    intro p q hp hq
    refine hp.mono fun res s' hres => ?_
    cases res with
    | ok a => exact hq _ hres
    | error e => trivial
  cases svc with
  | order =>
    show (OrderKafkaConsumer.dispatch r.value).After _ _ _ _
    unfold OrderKafkaConsumer.dispatch
    simp only
    split
    · rename_i htype
      refine after_field_return fun orderId hid => after_field_return fun customerId hcustomer =>
        after_field_return fun items hitems => ?_
      refine hreturn (first_createOrder hdb fun k n => hcalls.randomUUID k .order n) ?_
      rintro db ⟨rows, hrows, hne⟩
      exact .created htype hid hcustomer hitems hrows hne
    · rename_i htype
      refine after_field_return fun orderId hid => after_field_return fun paymentId hpayment => ?_
      refine hreturn (first_confirmOrder hdb) ?_
      rintro db ⟨rows, hrows⟩
      exact .confirmed htype hid hpayment hrows
    · rename_i htype
      refine after_field_return fun orderId hid => after_field_return fun reason hreason => ?_
      refine hreturn (first_cancelOrder hdb) ?_
      rintro db ⟨rows, hrows⟩
      exact .cancelled htype hid hreason hrows
    · refine Absorbed.foreign ?_
      show OrderKafkaConsumer.dispatch r.value = _
      unfold OrderKafkaConsumer.dispatch
      simp only
  | payment =>
    show (PaymentKafkaConsumer.dispatch r.value).After _ _ _ _
    unfold PaymentKafkaConsumer.dispatch
    simp only
    split
    · rename_i htype
      refine after_field_return fun orderId hid => after_field_return fun customerId hcustomer =>
        after_field_return fun amountCents hamount => ?_
      refine hreturn (first_authorizePayment hdb) ?_
      rintro db ⟨p, hp⟩
      exact .charged ⟨htype, hid, hcustomer, hamount, rfl⟩ hp
    · rename_i htype
      refine after_field_return fun orderId hid => after_field_return fun paymentId hpayment =>
        after_field_return fun amountCents hamount => ?_
      refine hreturn (first_refundPayment hdb hcalls.refund) ?_
      rintro db ⟨rows, pspReference, hrows, hpsp⟩
      exact .refunded ⟨htype, hid, hpayment, hamount, rfl⟩ hrows hpsp
    · refine Absorbed.foreign ?_
      show PaymentKafkaConsumer.dispatch r.value = _
      unfold PaymentKafkaConsumer.dispatch
      simp only
  | inventory =>
    show (InventoryKafkaConsumer.dispatch r.value).After _ _ _ _
    unfold InventoryKafkaConsumer.dispatch
    simp only
    split
    · rename_i htype
      refine after_field_return fun orderId hid => after_field_return fun lines hlines => ?_
      refine hreturn (first_reserveStock hdb) ?_
      rintro db ⟨rows, hrows, hne⟩
      exact .reserved htype hid hlines hrows hne
    · rename_i htype
      refine after_field_return fun orderId hid =>
        after_field_return fun reservationId hreservation => ?_
      refine hreturn (first_releaseInventory hdb) ?_
      rintro db ⟨rows, hrows⟩
      exact .released htype hid hreservation hrows
    · refine Absorbed.foreign ?_
      show InventoryKafkaConsumer.dispatch r.value = _
      unfold InventoryKafkaConsumer.dispatch
      simp only

/-- **An absorbed command changes nothing**, a release where the counters have room. -/
theorem Absorbed.again (he : Absorbed s.db svc r.value) (hdb : Consistent s.db)
    (hfloor : r.value.type = .releaseInventory → StockFloor s.db)
    (hrefund : ∀ k pspReference amountCents reason, ∃ result,
      answer k (.refund pspReference amountCents reason) = .ok result) :
    (consumer svc r.value).After answer (.command svc r) (Unchanged s) s := by
  generalize hvalue : r.value = e at he
  cases he with
  | created htype hid hcustomer hitems hrows hne =>
    unfold consumer OrderKafkaConsumer.dispatch
    simp only [htype]
    exact after_field hid (after_field hcustomer (after_field hitems (again_createOrder hrows hne)))
  | confirmed htype hid hpayment hclosed =>
    unfold consumer OrderKafkaConsumer.dispatch
    simp only [htype]
    exact after_field hid (after_field hpayment (again_confirmOrder hclosed))
  | cancelled htype hid hreason hclosed =>
    unfold consumer OrderKafkaConsumer.dispatch
    simp only [htype]
    exact after_field hid (after_field hreason (again_cancelOrder hclosed))
  | reserved htype hid hlines hrows hne =>
    unfold consumer InventoryKafkaConsumer.dispatch
    simp only [htype]
    exact after_field hid (after_field hlines (again_reserveStock hdb hrows hne))
  | released htype hid hreservation hclosed =>
    unfold consumer InventoryKafkaConsumer.dispatch
    simp only [htype]
    exact after_field hid (after_field hreservation
      (again_releaseInventory hdb (hfloor (hvalue ▸ htype)) hclosed))
  | charged hcommand hindex =>
    unfold consumer PaymentKafkaConsumer.dispatch
    simp only [hcommand.type]
    exact after_field hcommand.orderId (after_field hcommand.customerId
      (after_field hcommand.amountCents (again_authorizePayment hdb hindex)))
  | refunded hcommand hclosed hpsp =>
    unfold consumer PaymentKafkaConsumer.dispatch
    simp only [hcommand.type]
    exact after_field hcommand.orderId (after_field hcommand.paymentId
      (after_field hcommand.amountCents (again_refundPayment (fun k => hrefund k _) hclosed hpsp)))
  | foreign hpure =>
    rw [hpure]
    exact ⟨rfl, rfl⟩

/-- Every handler keeps the protocol. -/
theorem wp_consumer (svc : Service) (r : Record CommandEnvelope) (seen : Db) :
    ∃ Q, (consumer svc r.value).wp serviceSystem serviceProtocol (.command svc r) Q seen s := by
  cases svc with
  | order => exact ⟨_, wp_orderDispatch⟩
  | payment => exact ⟨_, wp_paymentDispatch⟩
  | inventory => exact ⟨_, wp_inventoryDispatch⟩

/-- One command more: what its steps keep, it keeps. -/
theorem execute_keeps {I : Shared → Prop} (hdb : Consistent s.db) (hs : I s)
    (hI : ∀ seen s s', Consistent s.db → I s → ServiceStep (.command svc r) seen s s' → I s') :
    Consistent (execute answer svc r s).2.db ∧ I (execute answer svc r s).2 := by
  obtain ⟨Q, hwp⟩ := wp_consumer svc r []
  have hkeeps : (consumer svc r.value).After answer (.command svc r)
      (fun _ s' => Consistent s'.db ∧ serviceProtocol.rely s s' ∧ I s') s :=
    Proc.run_keeps (P := serviceProtocol) (fun _ _ => trivial) (fun _ _ _ => trivial) hI
      (consumer svc r.value) hwp hdb hs
  exact ⟨hkeeps.1, hkeeps.2.2⟩

theorem executeAll_keeps {I : Shared → Prop} (rs : List (Record CommandEnvelope))
    (hdb : Consistent s.db) (hs : I s)
    (hI : ∀ r ∈ rs, ∀ seen s s', Consistent s.db → I s →
      ServiceStep (.command svc r) seen s s' → I s') :
    Consistent (executeAll answer svc rs s).db ∧ I (executeAll answer svc rs s) := by
  induction rs generalizing s with
  | nil => exact ⟨hdb, hs⟩
  | cons r rs ih =>
    obtain ⟨hdb', hs'⟩ : Consistent (execute answer svc r s).2.db ∧ I (execute answer svc r s).2 :=
      execute_keeps hdb hs (hI r List.mem_cons_self)
    exact ih hdb' hs' fun r' hr' => hI r' (List.mem_cons_of_mem _ hr')

end Commands

/-! ## Late redelivery -/

/-- The command is idempotent from `s` on: once it has returned, and after any
further commands of the service among those of `T`, it returns again and leaves
every row as it is. -/
def AbsorbsLate (T : Task → Prop) (s : Shared) (svc : Service) (r : Record CommandEnvelope) : Prop :=
  ∀ answer, CallsReturn answer s.db → ∀ s₁, execute answer svc r s = (.ok (), s₁) →
    ∀ rs, (∀ r' ∈ rs, T (.command svc r')) → ∃ s₃,
      execute answer svc r (executeAll answer svc rs s₁) = (.ok (), s₃) ∧
        s₃.db = (executeAll answer svc rs s₁).db

section Late

variable {s : Shared} {svc : Service} {r : Record CommandEnvelope}

theorem absorbsLate {T : Task → Prop} {F : Shared → Prop} (hdb : Consistent s.db) (hs : F s)
    (hT : T (.command svc r)) (hF : ∀ t seen s s', T t → Consistent s.db → F s →
      ServiceStep t seen s s' → F s')
    (hfloor : ∀ s, F s → r.value.type = .releaseInventory → StockFloor s.db) :
    AbsorbsLate T s svc r := by
  intro answer hcalls s₁ hfirst rs hrs
  have hreturn : (consumer svc r.value).After answer (.command svc r)
      (OnReturn fun db => Absorbed db svc r.value) s := absorbed_of_return hdb hcalls
  have hkeeps : Consistent (execute answer svc r s).2.db ∧ F (execute answer svc r s).2 :=
    execute_keeps hdb hs fun seen s s' => hF _ seen s s' hT
  unfold Proc.After at hreturn
  rw [show Proc.run answer (.command svc r) (consumer svc r.value) s = (.ok (), s₁) from hfirst]
    at hreturn
  rw [hfirst] at hkeeps
  -- neither the invariant nor what the command left is lost meanwhile
  obtain ⟨hdb₂, hF₂, habsorbed⟩ : Consistent (executeAll answer svc rs s₁).db ∧
      F (executeAll answer svc rs s₁) ∧ Absorbed (executeAll answer svc rs s₁).db svc r.value :=
    executeAll_keeps (I := fun s => F s ∧ Absorbed s.db svc r.value) rs hkeeps.1
      ⟨hkeeps.2, hreturn⟩ fun r' hr' seen s s' hinv hI hstep =>
        ⟨hF _ _ _ _ (hrs r' hr') hinv hI.1 hstep, hI.2.step hinv hstep⟩
  have hagain := habsorbed.again hdb₂ (hfloor _ hF₂) hcalls.refund
  exact ⟨_, Prod.ext hagain.1 rfl, hagain.2⟩

end Late

/-- The system over a stock table whose counters are not negative, where no
reservation asks for less than nothing. -/
def stockedSystem : System :=
  { serviceSystem with
    start := fun s => (Fresh s.db ∧ s.trace = []) ∧ ∀ sku row, stockLevel s.db sku = some row →
      0 ≤ row.qtyReserved ∧ row.qtyReserved < 2 ^ 31
    spawn := fun _ t => AsksNonneg t }

theorem stockedSystem_keeps {G : Guard} : stockedSystem.Keeps serviceProtocol G :=
  keepsServiceProtocol rfl fun _ h => h.1.1.consistent

theorem StockFloor.fresh {db : Db} (hdb : Fresh db)
    (hcounters : ∀ sku row, stockLevel db sku = some row → 0 ≤ row.qtyReserved ∧ row.qtyReserved < 2 ^ 31) :
    StockFloor db where
  shape := by
    intro o rows hrows
    rw [hdb.stream_nil hrows]
    exact .untried
  lines := by
    intro o rows hrows
    rw [hdb.stream_nil hrows]
    refine ⟨nofun, fun sku => ?_⟩
    show unitsOf sku [] < 2 ^ 31
    rw [unitsOf_nil]
    norm_num
  counter := by
    intro sku row hrow
    obtain ⟨hnonneg, hupper⟩ := hcounters sku row hrow
    have hheld : heldSum (unitsOf sku) db = 0 := by
      refine Finset.sum_eq_zero fun o _ => ?_
      rw [inventoryEvents_eq (hdb.hasStream .inventory o)]
      rfl
    rw [hheld]
    exact ⟨by exact_mod_cast hnonneg, hupper⟩

theorem stockFloor_of_reach {s : State} (h : Reach stockedSystem anything s) :
    StockFloor s.shared.db :=
  Protocol.invariant_of_took stockedSystem_keeps (T := fun _ => AsksNonneg)
    (I := fun s => StockFloor s.db) (fun _ _ hspawn => hspawn) (fun _ _ _ _ ht => ht)
    (fun _ hs => .fresh hs.1.1 hs.2)
    (fun _ _ _ _ hinv htook hI hguar => hI.step hinv htook.task hguar) h

/-- **Command handlers are idempotent under late redelivery**; a release where
no reservation asks for less than nothing. -/
theorem lateRedelivery :
    (∀ s : LockState, LockReach serviceSystem anything s → ∀ svc r,
      r.value.type ≠ .releaseInventory → AbsorbsLate (fun _ => True) s.base.shared svc r) ∧
    ∀ s : LockState, LockReach stockedSystem anything s → ∀ svc r,
      r.value.type = .releaseInventory → AbsorbsLate AsksNonneg s.base.shared svc r := by
  constructor
  · intro s h svc r htype
    have hdb := (Protocol.sound serviceSystem_keeps h.atomic.2).inv
    exact absorbsLate (F := fun _ => True) hdb trivial trivial (fun _ _ _ _ _ _ _ _ => trivial)
      fun _ _ hrelease => absurd hrelease htype
  · intro s h svc r htype
    have hdb := (Protocol.sound stockedSystem_keeps h.atomic.2).inv
    have hasks : AsksNonneg (.command svc r) := by
      intro r' heq hreserve
      cases heq
      rw [htype] at hreserve
      cases hreserve
    exact absorbsLate (F := fun s => StockFloor s.db) hdb (stockFloor_of_reach h.atomic.2) hasks
      (fun _ _ _ _ ht hinv hI hstep => hI.step hinv ht hstep) fun _ hI _ => hI

/-! ## A release, delivered again -/

/-- As `allWell`, with these ids for outbox rows. -/
def drawing (ids : ℕ → Uuid) (k : ℕ) : (a : Act) → Act.Reply a
  | .randomUUIDs => ids
  | a => allWell k a

/-- Two of five are reserved for an order. -/
def afterReservation : Shared :=
  stockedSystem.runs (drawing fun _ => uuidOf 10) [reserveStock 0 order₁ [⟨"A", 2⟩]] ⟨fiveInStock, []⟩

def releaseRecord : Record CommandEnvelope :=
  commandRecord 1 .releaseInventory { orderId := some order₁, reservationId := some (uuidOf 0) }

/-- Ids for what comes later: each draw is of one event. -/
def later (n : ℕ) : Uuid := if n = 1 then uuidOf 11 else uuidOf 12

theorem afterReservation_reached : Reach stockedSystem anything (.idle afterReservation) := by
  refine Reach.runs _ (.start ⟨⟨fresh_fiveInStock, rfl⟩, fun sku row hrow => ?_⟩) (fun s t ht => ?_)
    fun _ _ _ _ => trivial
  · rw [(level_fiveInStock hrow).2]
    decide
  · rw [List.mem_singleton] at ht
    subst ht
    intro r hr _ lines hlines line hline
    cases hr
    cases hlines
    rw [List.mem_singleton] at hline
    subst hline
    decide

theorem callsReturn_later : CallsReturn (drawing later) afterReservation.db where
  authorize := fun _ _ => ⟨_, rfl⟩
  refund := fun _ _ _ _ => ⟨_, rfl⟩
  randomUUID := by
    intro k svc n
    show Store.row afterReservation.db (.outbox svc (if n = 1 then uuidOf 11 else uuidOf 12)) = none
    by_cases hn : n = 1
    · rw [if_pos hn]
      cases svc <;> decide +kernel
    · rw [if_neg hn]
      cases svc <;> decide +kernel

theorem ok_of_toBool {res : Except Err Unit} (h : res.toBool = true) : res = .ok () := by
  cases res with
  | ok a => rfl
  | error e => cases h

/-- Released, another order reserved, and released again: nothing changes. -/
theorem lateRedelivery_release :
    AbsorbsLate AsksNonneg afterReservation .inventory releaseRecord ∧
    (∃ s₃, execute (drawing later) .inventory releaseRecord (executeAll (drawing later) .inventory
        [commandRecord 2 .reserveStock { orderId := some order₂, lines := some [⟨"A", 1⟩] }]
        (execute (drawing later) .inventory releaseRecord afterReservation).2) = (.ok (), s₃) ∧
      qtyReserved s₃.db "A" = 1) ∧
    ∀ r, r.value.type ≠ .releaseInventory →
      AbsorbsLate (fun _ => True) (⟨fiveInStock, []⟩ : Shared) .inventory r := by
  have hlate := lateRedelivery.2 _ afterReservation_reached.withLocks .inventory releaseRecord rfl
  have hstart : Reach serviceSystem anything (.idle ⟨fiveInStock, []⟩) :=
    .start ⟨fresh_fiveInStock, rfl⟩
  refine ⟨hlate, ?_, fun r hr => lateRedelivery.1 _ hstart.withLocks .inventory r hr⟩
  have hfirst : execute (drawing later) .inventory releaseRecord afterReservation =
      (.ok (), (execute (drawing later) .inventory releaseRecord afterReservation).2) :=
    Prod.ext (ok_of_toBool (by decide +kernel)) rfl
  obtain ⟨s₃, hagain, hdb⟩ := hlate _ callsReturn_later _ hfirst
    [commandRecord 2 .reserveStock { orderId := some order₂, lines := some [⟨"A", 1⟩] }] (by
      intro r' hr' r heq _ lines hlines line hline
      rw [List.mem_singleton] at hr'
      subst hr'
      cases heq
      cases hlines
      rw [List.mem_singleton] at hline
      subst hline
      decide)
  refine ⟨s₃, hagain, ?_⟩
  rw [hdb]
  decide +kernel

/-- A reservation of less than nothing leaves no room for taking two more away:
the release fails when it is delivered again. -/
theorem lateRelease_fails : ¬ ∀ s : LockState, LockReach serviceSystem anything s → ∀ svc r,
    AbsorbsLate (fun _ => True) s.base.shared svc r := by
  intro h
  have hreach : Reach serviceSystem anything (.idle (serviceSystem.runs (drawing fun _ => uuidOf 10)
      [reserveStock 0 order₁ [⟨"A", 2⟩]] ⟨fiveInStock, []⟩)) :=
    Reach.runs _ (.start ⟨fresh_fiveInStock, rfl⟩) (fun _ _ _ => trivial) fun _ _ _ _ => trivial
  have hfirst : execute (drawing later) .inventory releaseRecord afterReservation =
      (.ok (), (execute (drawing later) .inventory releaseRecord afterReservation).2) :=
    Prod.ext (ok_of_toBool (by decide +kernel)) rfl
  obtain ⟨s₃, hagain, -⟩ := h _ hreach.withLocks .inventory releaseRecord _ callsReturn_later _ hfirst
    [commandRecord 2 .reserveStock { orderId := some order₂, lines := some [⟨"A", -2 ^ 31⟩] }]
    fun _ _ => trivial
  have hfails : (execute (drawing later) .inventory releaseRecord (executeAll (drawing later)
      .inventory [commandRecord 2 .reserveStock
        { orderId := some order₂, lines := some [⟨"A", -2 ^ 31⟩] }]
      (execute (drawing later) .inventory releaseRecord afterReservation).2)).1.toBool = false := by
    decide +kernel
  rw [hagain] at hfails
  cases hfails

end Saganova
