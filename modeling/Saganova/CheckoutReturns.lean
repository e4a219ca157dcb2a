import Saganova.CheckoutProgress
import Saganova.CreatedOrders
import Saganova.GatewayCalls
import Saganova.Reservations

/-!
# What is delivered succeeds

In a reachable state of the composed system, the handler of any message there
is returns (`succeeds_of_ready`): if the gateway answers, the ids that are
drawn are new, and the orders fit their columns (`Roomy`).
Handlers fail on an unknown order, on a field that is missing, on a saga past
its last step; that none of this happens is what the invariants of the messages
and of the sagas say.
-/

namespace Saganova

open Concurrency Decision StockRepository

/-! ## Orders that fit -/

/-- The numbers of an order are values of their columns, and every counter has
room for them. -/
structure OrderFits (db : Db) (items : List OrderLineItem) : Prop where
  total : ∃ n : ℤ, OrderAggregate.totalCents items = n ∧ Int4 n
  lines : PositiveLines (reservationLines items)
  room : ∀ sku row, stockLevel db sku = some row →
    row.qtyAvailable + qtyOf sku (reservationLines items) < 2 ^ 31

/-- The strings of a request are values of their columns. -/
structure RequestFits (customerId : Uuid) (items : List OrderLineItem) (correlationId : String) :
    Prop where
  customer : IsUuid customerId
  skus : ∀ item ∈ items, TextFits item.sku
  correlationId : TextFits correlationId

/-- Every order that the gateway was asked for fits. -/
structure Roomy (s : Shared) : Prop where
  requests : ∀ customerId items correlationId o,
    Event.acted (.createOrder customerId items correlationId) .randomUUID o ∈ s.trace →
    RequestFits customerId items correlationId
  counters : ∀ sku row, stockLevel s.db sku = some row → Int4 row.qtyReserved
  orders : ∀ customerId items correlationId o,
    Event.acted (.createOrder customerId items correlationId) .randomUUID o ∈ s.trace →
    OrderFits s.db items

/-- The counters stay values of their column, and the stock what it is. -/
def KeepsLevels (db db' : Db) : Prop :=
  ∀ sku row', stockLevel db' sku = some row' → ∃ row, stockLevel db sku = some row ∧
    row'.qtyAvailable = row.qtyAvailable ∧ (Int4 row.qtyReserved → Int4 row'.qtyReserved)

section Levels

variable {db db' : Db} {lines : List ReservationLine} {u : Unit}

theorem KeepsLevels.of_eq (h : ∀ sku, stockLevel db' sku = stockLevel db sku) :
    KeepsLevels db db' :=
  fun sku row' hrow' => ⟨row', (h sku).symm.trans hrow', rfl, id⟩

theorem KeepsLevels.trans {db₁ db₂ db₃ : Db} (h : KeepsLevels db₁ db₂) (h' : KeepsLevels db₂ db₃) :
    KeepsLevels db₁ db₃ := by
  intro sku row₃ hrow₃
  obtain ⟨row₂, hrow₂, havailable₂, hint₂⟩ := h' sku row₃ hrow₃
  obtain ⟨row₁, hrow₁, havailable₁, hint₁⟩ := h sku row₂ hrow₂
  exact ⟨row₁, hrow₁, havailable₂.trans havailable₁, fun hint => hint₂ (hint₁ hint)⟩

theorem keepsLevels_updateReserved {sku : String} {f : ℤ → Num}
    (h : Tx.Runs db (updateReserved sku f) u db') : KeepsLevels db db' := by
  obtain ⟨-, rfl⟩ | ⟨row, hrow, hint, rfl⟩ := runs_updateReserved.mp h
  · exact .of_eq fun _ => rfl
  · intro sku' row' hrow'
    by_cases hsku : sku' = sku
    · subst hsku
      obtain rfl := Option.some.inj ((Store.row_cons_self _ _ _).symm.trans hrow')
      exact ⟨row, hrow, rfl, fun _ => hint⟩
    · exact ⟨row', (Store.row_cons_ne _ _ (by simpa using hsku)).symm.trans hrow', rfl, id⟩

theorem keepsLevels_incrementLines (h : Tx.Runs db (incrementLines lines) u db') :
    KeepsLevels db db' := by
  induction lines generalizing db with
  | nil =>
    obtain ⟨-, rfl⟩ := Tx.runs_pure.mp h
    exact .of_eq fun _ => rfl
  | cons line lines ih =>
    obtain ⟨_, db₁, hline, hlines⟩ := Tx.runs_bind.mp h
    exact (keepsLevels_updateReserved hline).trans (ih hlines)

theorem keepsLevels_releaseLines (h : Tx.Runs db (releaseLinesWithinTransaction lines) u db') :
    KeepsLevels db db' := by
  induction lines generalizing db with
  | nil =>
    obtain ⟨-, rfl⟩ := Tx.runs_pure.mp h
    exact .of_eq fun _ => rfl
  | cons line lines ih =>
    obtain ⟨_, db₁, hline, hlines⟩ := Tx.runs_bind.mp h
    exact (keepsLevels_updateReserved hline).trans (ih hlines)

theorem StockEffect.keepsLevels {rows : List (EventStoreRow .inventory)} {event : InventoryEvent}
    (h : StockEffect .inventory rows event db db') : KeepsLevels db db' := by
  cases event with
  | inventoryReserved p => exact keepsLevels_incrementLines (runs_reserveLines.mp h).2
  | inventoryReleased p => exact keepsLevels_releaseLines h
  | inventoryReservationFailed p =>
    obtain rfl : db' = db := h
    exact .of_eq fun _ => rfl

theorem ServiceStep.keepsLevels {t : Task} {seen : Db} {s s' : Shared}
    (h : ServiceStep t seen s s') : KeepsLevels s.db s'.db := by
  obtain ⟨-, hsame⟩ | ⟨o, rows, r, db, -, heffect, -, hsame, -⟩ := h.inventory_cases
  · exact .of_eq hsame
  · exact heffect.keepsLevels.trans (.of_eq hsame)

theorem OrderFits.keepsLevels {items : List OrderLineItem} (h : OrderFits db items)
    (hlevels : KeepsLevels db db') : OrderFits db' items where
  total := h.total
  lines := h.lines
  room sku row' hrow' := by
    obtain ⟨row, hrow, havailable, -⟩ := hlevels sku row' hrow'
    rw [havailable]
    exact h.room sku row hrow

/-- Increments go through where the counters have room for them. -/
theorem incrementLines_succeeds (hlines : PositiveLines lines)
    (hroom : ∀ sku row, stockLevel db sku = some row → Int4 row.qtyReserved ∧
      row.qtyReserved + qtyOf sku lines < 2 ^ 31) :
    ∃ db', Tx.Runs db (incrementLines lines) () db' := by
  induction lines generalizing db with
  | nil => exact ⟨db, Tx.runs_pure.mpr ⟨rfl, rfl⟩⟩
  | cons line lines ih =>
    obtain ⟨⟨q, hpos, hq⟩, hrest⟩ := List.forall_mem_cons.mp hlines
    have hround : ∀ row : StockLevelRow, roundNumeric ((row.qtyReserved : Num) + line.qty) =
        row.qtyReserved + q := by
      intro row
      rw [hq]
      exact_mod_cast roundNumeric_intCast (row.qtyReserved + q)
    obtain ⟨db₁, hupdate⟩ : ∃ db₁, Tx.Runs db (increment line.sku line.qty) () db₁ := by
      cases hrow : stockLevel db line.sku with
      | none => exact ⟨db, runs_updateReserved.mpr (.inl ⟨hrow, rfl⟩)⟩
      | some row =>
        refine ⟨_, runs_updateReserved.mpr (.inr ⟨row, hrow, ?_, rfl⟩)⟩
        obtain ⟨⟨hlow, -⟩, hhigh⟩ := hroom line.sku row hrow
        have hnonneg := PositiveLines.qtyOf_nonneg hrest line.sku
        rw [qtyOf_cons, if_pos rfl, hq] at hhigh
        have hlt : ((row.qtyReserved + q : ℤ) : Num) < 2 ^ 31 := by
          push_cast
          linarith
        rw [hround]
        exact ⟨by omega, by exact_mod_cast hlt⟩
    have hmove := moves_updateReserved (q := q) hupdate fun row _ => hround row
    obtain ⟨db', hruns⟩ := ih hrest fun sku row hrow => by
      obtain ⟨old, hold, -, hreserved⟩ := hmove.origin hrow
      obtain ⟨hint, hhigh⟩ := hroom sku old hold
      obtain ⟨old', hold', -, hkeeps⟩ := keepsLevels_updateReserved hupdate sku row hrow
      obtain rfl := Option.some.inj (hold.symm.trans hold')
      refine ⟨hkeeps hint, ?_⟩
      rw [hreserved]
      rw [qtyOf_cons, hq] at hhigh
      push_cast
      linarith
    exact ⟨db', Tx.runs_bind.mpr ⟨(), db₁, hupdate, hruns⟩⟩

/-- So does a reservation whose lines were found to be available. -/
theorem OrderFits.reserves {items : List OrderLineItem} (h : OrderFits db items)
    (hcounters : ∀ sku row, stockLevel db sku = some row → Int4 row.qtyReserved)
    (hcheck : ∃ db', Tx.Runs db (checkLines (reservationLines items)) () db') :
    ∃ db', Tx.Runs db (reserveLinesWithinTransaction (reservationLines items)) () db' := by
  obtain ⟨_, hcheck⟩ := hcheck
  obtain ⟨-, hlines⟩ := runs_checkLines.mp hcheck
  obtain ⟨db', hincrement⟩ := incrementLines_succeeds h.lines fun sku row hrow => by
    refine ⟨hcounters sku row hrow, ?_⟩
    by_cases hnamed : ∃ line ∈ reservationLines items, line.sku = sku
    · obtain ⟨line, hline, rfl⟩ := hnamed
      obtain ⟨row', hrow', hle⟩ := hlines line hline
      obtain rfl := Option.some.inj (hrow.symm.trans hrow')
      obtain ⟨q, hpos, hq⟩ := h.lines line hline
      have hroom := h.room line.sku row hrow
      push_cast [hq] at hle
      have hpos' : (0 : Num) < q := by exact_mod_cast hpos
      linarith
    · rw [qtyOf_eq_zero fun line hline heq => hnamed ⟨line, hline, heq⟩, add_zero]
      exact_mod_cast (hcounters sku row hrow).2
  exact ⟨db', runs_reserveLines.mpr ⟨hlines, hincrement⟩⟩

end Levels

/-! ## Saves -/

/-- The handler returns. -/
def Returned (res : Except Err Unit) (_ : Shared) : Prop := res = .ok ()

section Save

variable {answer : ℕ → (a : Act) → Act.Reply a} {t : Task} {s : Shared} {db : Db}

theorem upsert_insert_succeeds {k : Key} (row : Row k) (update : Row k → Row k) :
    ∃ db', Tx.Runs db (upsert k (insert k row) update) () db' := by
  cases hrow : Store.row db k with
  | some old => exact ⟨_, runs_upsert.mpr (.inr ⟨old, hrow, rfl⟩)⟩
  | none => exact ⟨_, runs_upsert.mpr (.inl ⟨hrow, runs_insert.mpr ⟨hrow, rfl⟩⟩)⟩

/-- A projection is upserted where its amount is a value of the column, and the
index has no other payment of the order. -/
def Upserts (db : Db) : (svc : Service) → svc.Aggregate → Prop
  | .order, (agg : OrderAggregate) => ∃ n : ℤ, agg.state.totalCents = n ∧ Int4 n
  | .payment, (agg : PaymentAggregate) => (∃ n : ℤ, agg.state.amountCents = n ∧ Int4 n) ∧
    Store.row db (.projection .payment agg.id) = none ∧
    Store.row db (.paymentOfOrder agg.state.orderId) = none
  | .inventory, _ => True

theorem Upserts.succeeds {svc : Service} {agg : svc.Aggregate} (h : Upserts db svc agg) :
    ∃ db', Tx.Runs db (svc.upsertWithinTransaction agg) () db' := by
  cases svc with
  | order =>
    obtain ⟨n, hn, hint⟩ := h
    exact (upsert_insert_succeeds _ _).imp fun _ hruns =>
      Tx.runs_bind.mpr ⟨n, db, runs_integer.mpr ⟨hn, hint, rfl⟩, hruns⟩
  | payment =>
    obtain ⟨⟨n, hn, hint⟩, hfree, hindex⟩ := h
    exact ⟨_, Tx.runs_bind.mpr ⟨n, db, runs_integer.mpr ⟨hn, hint, rfl⟩,
      runs_upsert.mpr (.inl ⟨hfree, Tx.runs_bind.mpr ⟨(), _, runs_insert.mpr ⟨hindex, rfl⟩,
        runs_insert.mpr ⟨(Store.row_cons_ne _ _ (by simp)).trans hfree, rfl⟩⟩⟩)⟩⟩
  | inventory => exact upsert_insert_succeeds _ _

theorem persist_succeeds {svc : Service} {id correlationId : String}
    {rows : List (EventStoreRow svc)} {event : svc.Event} {time : Time} {ids : ℕ → Uuid}
    (hrows : HasStream svc db id rows)
    (hid : Store.row db (.outbox svc (ids (rows.length + 1))) = none)
    (hupserts : Upserts db svc (withEvent svc id rows event time)) :
    ∃ db', Tx.Runs db (persist svc (withEvent svc id rows event time) correlationId ids) () db' := by
  have hsame : ∀ {db₁ : Db}, (∀ svc' p, Store.row db₁ (.projection svc' p) =
      Store.row db (.projection svc' p)) → (∀ o, Store.row db₁ (.paymentOfOrder o) =
      Store.row db (.paymentOfOrder o)) → Upserts db₁ svc (withEvent svc id rows event time) := by
    intro db₁ hprojection hindex
    cases svc with
    | order => exact hupserts
    | payment =>
      obtain ⟨hamount, hfree, hnone⟩ := hupserts
      exact ⟨hamount, (hprojection _ _).trans hfree, (hindex _).trans hnone⟩
    | inventory => trivial
  have hrow : ∀ k : Key, k ≠ .outbox svc (ids (rows.length + 1)) →
      k ≠ .eventStore svc id (rows.length + 1) →
      Store.row (⟨.outbox svc (ids (rows.length + 1)),
          outboxRow svc id (eventRow svc event time correlationId)⟩ ::
        ⟨.eventStore svc id (rows.length + 1), eventRow svc event time correlationId⟩ :: db) k =
        Store.row db k :=
    fun k houtbox hevent => (Store.row_cons_ne _ _ houtbox).trans (Store.row_cons_ne _ _ hevent)
  obtain ⟨db', hruns⟩ := (hsame (fun _ _ => hrow _ (by simp) (by simp))
    fun _ => hrow _ (by simp) (by simp)).succeeds
  exact ⟨db', runs_persist.mpr ⟨hrows.next, hid, hruns⟩⟩

/-- A transaction that goes through. -/
theorem after_tx_succeeds {α : Type} {Q : Except Err α → Shared → Prop} {body : DbTx Unit}
    {next : Except Err Unit → Handler α} (h : ∃ db', Tx.Runs s.db body () db')
    (hok : ∀ w, (next (.ok ())).After answer t Q (s.commit t w)) :
    Proc.After answer t Q (.tx body next) s := by
  obtain ⟨_, w, hexec, -⟩ := h
  refine Proc.after_tx (fun w _ => hok w) fun e herror => ?_
  cases hexec.symm.trans herror

theorem after_save_succeeds (svc : Service) {id correlationId : String}
    {rows : List (EventStoreRow svc)} {event : svc.Event} {time : Time}
    (hrows : HasStream svc s.db id rows)
    (hids : ∀ k n, Store.row s.db (.outbox svc (answer k .randomUUIDs n)) = none)
    (hupserts : Upserts s.db svc (withEvent svc id rows event time)) :
    (do let _ ← save svc (withEvent svc id rows event time) correlationId).After answer t
      Returned s := by
  refine Proc.after_bind _ _ (after_save svc (fun _ _ _ => rfl) fun k e herror => ?_)
  obtain ⟨_, w, hexec, -⟩ : ∃ db', Tx.Runs s.db (persist svc (withEvent svc id rows event time)
    correlationId (answer k .randomUUIDs)) () db' := persist_succeeds hrows (hids k _) hupserts
  cases hexec.symm.trans herror

end Save

/-! ## Handlers -/

section Handlers

variable {answer : ℕ → (a : Act) → Act.Reply a} {t : Task} {s : Shared}

theorem returned_createOrder {command : CreateOrderCommand} (hdb : Consistent s.db)
    (hids : ∀ k n, Store.row s.db (.outbox .order (answer k .randomUUIDs n)) = none)
    (htotal : ∃ n : ℤ, OrderAggregate.totalCents command.items = n ∧ Int4 n) :
    (CreateOrderHandler.execute command).After answer t Returned s := by
  obtain ⟨rows, hrows⟩ := hdb.stream .order command.orderId
  by_cases hne : rows = []
  · subst hne
    unfold CreateOrderHandler.execute OrderEventStoreRepository.save
    simp only [now_bind, createNew_eq]
    refine Proc.after_act (Proc.after_tryCatch _ _ ?_)
    refine Proc.After.mono (Q := Returned) ?_ fun res s' hres => ?_
    · exact after_save_succeeds .order hrows hids htotal
    · obtain rfl : res = .ok () := hres
      rfl
  · exact (again_createOrder hrows hne).mono fun _ _ h => h.1

/-- The total of an order that was created is that of what was placed. -/
theorem Recorded.totalCents {o : Uuid} {rows : List (EventStoreRow .order)}
    (h : Recorded s .order o rows) (hne : rows ≠ []) : ∃ customerId items,
      Placed s o customerId items ∧
      (replay .order rows).totalCents = OrderAggregate.totalCents items := by
  cases h with
  | nil => exact absurd rfl hne
  | created hplaced hevent =>
    refine ⟨_, _, hplaced, ?_⟩
    rw [replay_one, hevent]
    rfl
  | confirmed hplaced hevent _ _ hevent' =>
    refine ⟨_, _, hplaced, ?_⟩
    rw [replay_two, hevent, hevent']
    rfl
  | cancelled hplaced hevent _ hevent' =>
    refine ⟨_, _, hplaced, ?_⟩
    rw [replay_two, hevent, hevent']
    rfl

theorem Roomy.total (hroomy : Roomy s) {o customerId : Uuid} {items : List OrderLineItem}
    (h : Placed s o customerId items) : OrderFits s.db items := by
  obtain ⟨⟨correlationId, hdrawn⟩, -⟩ := h
  exact hroomy.orders _ _ _ _ hdrawn

theorem returned_confirmOrder {command : ConfirmOrderCommand} (hI : CheckoutInv s)
    (hroomy : Roomy s) (hcreated : Created s command.orderId)
    (hids : ∀ k n, Store.row s.db (.outbox .order (answer k .randomUUIDs n)) = none) :
    (ConfirmOrderHandler.execute command).After answer t Returned s := by
  obtain ⟨rows, hrows, hne⟩ := hcreated
  by_cases hstatus : (replay .order rows).status = .created
  · refine after_loadAggregate .order hrows ?_
    simp only [if_neg hne, now_bind]
    refine Proc.after_act ?_
    rw [confirm_created hstatus]
    obtain ⟨customerId, items, hplaced, htotal⟩ := (hI.streams _ _ _ hrows).totalCents hne
    obtain ⟨n, hn, hint⟩ := (hroomy.total hplaced).total
    exact after_save_succeeds .order hrows hids ⟨n, htotal.trans hn, hint⟩
  · exact (again_confirmOrder ⟨hrows, hne, closed_of_ne_created hne hstatus⟩).mono fun _ _ h => h.1

theorem returned_cancelOrder {command : CancelOrderCommand} (hI : CheckoutInv s)
    (hroomy : Roomy s) (hcreated : Created s command.orderId)
    (hids : ∀ k n, Store.row s.db (.outbox .order (answer k .randomUUIDs n)) = none) :
    (CancelOrderHandler.execute command).After answer t Returned s := by
  obtain ⟨rows, hrows, hne⟩ := hcreated
  by_cases hclosed : (replay .order rows).status = .cancelled ∨
      (replay .order rows).status = .confirmed
  · exact (again_cancelOrder ⟨hrows, hne, hclosed⟩).mono fun _ _ h => h.1
  · refine after_loadAggregate .order hrows ?_
    simp only [if_neg hne, now_bind]
    refine Proc.after_act ?_
    rw [cancel_pending hclosed]
    obtain ⟨customerId, items, hplaced, htotal⟩ := (hI.streams _ _ _ hrows).totalCents hne
    obtain ⟨n, hn, hint⟩ := (hroomy.total hplaced).total
    exact after_save_succeeds .order hrows hids ⟨n, htotal.trans hn, hint⟩

theorem returned_authorizePayment {command : AuthorizePaymentCommand} (hdb : Consistent s.db)
    (hids : ∀ k n, Store.row s.db (.outbox .payment (answer k .randomUUIDs n)) = none)
    (hpayment : ∀ k, HasStream .payment s.db (answer k .randomUUID) [])
    (hgateway : ∀ k params, ∃ result, (answer k (.authorize params)).answer = .ok result)
    (hamount : ∃ n : ℤ, command.amountCents = n ∧ Int4 n) :
    (AuthorizePaymentHandler.execute command).After answer t Returned s := by
  cases hindex : Store.row s.db (.paymentOfOrder command.orderId) with
  | some p => exact (again_authorizePayment hdb hindex).mono fun _ _ h => h.1
  | none =>
    refine Proc.after_read ?_
    simp only [hindex, Option.bind_eq_bind, Option.bind_none, randomUUID_bind,
      PaymentGateway.authorize_bind]
    refine Proc.after_act (Proc.after_act ?_)
    obtain ⟨result, hresult⟩ := hgateway (s.acted t .randomUUID _).trace.length
      (AuthorizePaymentHandler.params command)
    generalize hreply : answer _ (.authorize _) = reply
    replace hresult : reply.answer = .ok result := by
      rw [← hreply]
      exact hresult
    rw [hresult, Proc.ofExcept_ok, pure_bind, now_bind]
    refine Proc.after_act ?_
    rw [aggregate_eq]
    have hrows := hpayment s.trace.length
    refine after_save_succeeds .payment hrows hids ⟨?_, (hdb.projected hrows).none_of_nil rfl, ?_⟩
    · -- a declined payment has no amount
      show ∃ n : ℤ, (PaymentAggregate.when _ (AuthorizePaymentHandler.event command _ _)).amountCents =
        n ∧ Int4 n
      unfold AuthorizePaymentHandler.event
      split
      · exact hamount
      · exact ⟨0, rfl, by decide⟩
    · show Store.row s.db (.paymentOfOrder
        (PaymentAggregate.when _ (AuthorizePaymentHandler.event command _ _)).orderId) = none
      rw [event_orderId]
      exact hindex

/-- The transaction of a reservation that fits fails only for what is not in stock. -/
theorem OrderFits.reserves_or {command : ReserveStockCommand} {items : List OrderLineItem}
    {reservationId : Uuid} {time : Time} {ids : ℕ → Uuid} {e : Err} (h : OrderFits s.db items)
    (hcounters : ∀ sku row, stockLevel s.db sku = some row → Int4 row.qtyReserved)
    (hlines : command.lines = reservationLines items)
    (hrows : HasStream .inventory s.db command.orderId [])
    (hid : Store.row s.db (.outbox .inventory (ids 1)) = none)
    (herror : (ReserveStockHandler.transaction command reservationId time ids).exec s.db [] =
      .error e) : IsInsufficient e := by
  unfold ReserveStockHandler.transaction reserveLinesWithinTransaction at herror
  cases hcheck : (checkLines command.lines).exec s.db [] with
  | error e' =>
    rw [Tx.exec_bind, Tx.exec_bind, hcheck] at herror
    obtain rfl : e' = e := Except.error.inj herror
    obtain ⟨sku, reason, rfl, -⟩ := exec_checkLines_error hcheck
    trivial
  | ok result =>
    obtain ⟨u, w⟩ := result
    rw [hlines] at hcheck
    obtain ⟨db, hreserves⟩ := h.reserves hcounters ⟨_, Tx.runs_of_exec hcheck⟩
    have hstock := onlyStock_incrementLines (runs_reserveLines.mp hreserves).2
    obtain ⟨db', hsave⟩ : ∃ db', Tx.Runs db (persist .inventory
        (withEvent .inventory command.orderId [] (.inventoryReserved
          { reservationId, orderId := command.orderId, lines := command.lines }) time)
        command.correlationId ids) () db' :=
      persist_succeeds (hstock.stream.mpr hrows) ((hstock _ (by simp)).trans hid) trivial
    have hruns : Tx.Runs s.db (ReserveStockHandler.transaction command reservationId time ids) ()
        db' := by
      refine Tx.runs_bind.mpr ⟨(), db, ?_, runs_saveWithinTransaction.mpr hsave⟩
      rw [hlines]
      exact hreserves
    obtain ⟨w', hexec, -⟩ := hruns
    cases hexec.symm.trans herror

theorem returned_reserveStock {command : ReserveStockCommand} {items : List OrderLineItem}
    (hdb : Consistent s.db) (hfits : OrderFits s.db items)
    (hcounters : ∀ sku row, stockLevel s.db sku = some row → Int4 row.qtyReserved)
    (hlines : command.lines = reservationLines items)
    (hids : ∀ k n, Store.row s.db (.outbox .inventory (answer k .randomUUIDs n)) = none) :
    (ReserveStockHandler.execute command).After answer t Returned s := by
  obtain ⟨rows, hrows⟩ := hdb.stream .inventory command.orderId
  by_cases hne : rows = []
  · subst hne
    have hnone := (hdb.projected hrows).none_of_nil rfl
    refine Proc.after_read ?_
    simp only [hnone, randomUUID_bind, now_bind, randomUUIDs_bind]
    refine Proc.after_act (Proc.after_act (Proc.after_act (Proc.after_tryCatch _ _ ?_)))
    refine Proc.after_tx (fun w _ => rfl) fun e herror => ?_
    have hinsufficient := hfits.reserves_or hcounters hlines hrows (hids _ 1) herror
    cases e with
    | insufficientStock sku reason =>
      show Proc.After answer t Returned (.act .now _) _
      refine Proc.after_act (Proc.after_bind _ _ ?_)
      unfold InventoryEventStoreRepository.save
      rw [randomUUIDs_bind]
      refine Proc.after_act (Proc.after_bind _ _ (after_tx_succeeds ?_ fun w => rfl))
      obtain ⟨db', hsave⟩ := persist_succeeds hrows (hids _ 1) trivial
      exact ⟨db', runs_saveWithinTransaction.mpr hsave⟩
    | _ => exact hinsufficient.elim
  · exact (again_reserveStock hdb hrows hne).mono fun _ _ h => h.1

/-- The handler of a command that was published. -/
theorem returned_consumer {svc : Service} {e : CommandEnvelope} {topic : Topic}
    (hpublished : Published s topic (.command e)) (hdb : Consistent s.db) (hI : CheckoutInv s)
    (hcalls : CallInv s) (hcreated : CreatedInv s) (hroomy : Roomy s) (hanswers : Answers answer s.db)
    (hpayment : ∀ k, HasStream .payment s.db (answer k .randomUUID) []) :
    (consumer svc e).After answer t Returned s := by
  have hcommand := hI.commands topic e hpublished
  have hcustomer := hcalls.commands topic e hpublished
  have hofSaga := hcreated.commands topic e hpublished
  have hids : ∀ svc k n, Store.row s.db (.outbox svc (answer k .randomUUIDs n)) = none :=
    fun svc k n => hanswers.randomUUID k svc n
  obtain ⟨id, type, version, correlationId, issuedAt, payload⟩ := e
  cases hcommand with
  | createOrder hplaced =>
    cases svc with
    | order => exact returned_createOrder hdb (hids _) (hroomy.total hplaced).total
    | payment => rfl
    | inventory => rfl
  | reserveStock hplaced =>
    cases svc with
    | order => rfl
    | payment => rfl
    | inventory =>
      exact returned_reserveStock hdb (hroomy.total hplaced) hroomy.counters rfl (hids _)
  | authorizePayment hplaced _ =>
    cases svc with
    | order => rfl
    | payment =>
      obtain ⟨o, customerId, -, rfl, -⟩ := hcustomer rfl
      exact returned_authorizePayment hdb (hids _) hpayment hanswers.authorize
        (hroomy.total hplaced).total
    | inventory => rfl
  | confirmOrder _ _ =>
    cases svc with
    | order =>
      obtain ⟨o, ho, hcreated⟩ := (hofSaga (by simp)).created
      obtain rfl := Option.some.inj ho
      exact returned_confirmOrder hI hroomy hcreated (hids _)
    | payment => rfl
    | inventory => rfl
  | cancelOrder _ =>
    cases svc with
    | order =>
      obtain ⟨o, ho, hcreated⟩ := (hofSaga (by simp)).created
      obtain rfl := Option.some.inj ho
      obtain ⟨reason, rfl⟩ := (hofSaga (by simp)).reason rfl
      exact returned_cancelOrder hI hroomy hcreated (hids _)
    | payment => rfl
    | inventory => rfl

/-- A message is acknowledged once it is handled. -/
theorem returned_eachMessage {α : Type} {dispatch : α → Handler Unit} {r : Record α}
    (hanswers : Answers answer s.db) (h : (dispatch r.value).After answer t Returned s) :
    (eachMessage dispatch r).After answer t Returned s := by
  refine Proc.after_bind _ _ (h.mono fun res s' hres => ?_)
  obtain rfl : res = .ok () := hres
  refine Proc.after_act ?_
  rw [hanswers.commitOffsets]
  rfl

/-! ## Decisions -/

theorem after_saveRow {orderId : Uuid} {row : SagaInstanceRow} {p : Handler Unit}
    (h : ∀ s', p.After answer t Returned s') :
    (do saveRow orderId row; p).After answer t Returned s :=
  after_tx_succeeds ⟨_, Tx.runs_of_exec (exec_saveRow s.db orderId row)⟩ fun _ => h _

theorem after_publish {type : CommandType} {payload : Payload} {correlationId : String}
    {p : Handler Unit} {db : Db} (hanswers : Answers answer db)
    (h : ∀ s', p.After answer t Returned s') :
    (do SagaCommandProducer.publish type (some payload) correlationId; p).After answer t
      Returned s := by
  rw [SagaCommandProducer.publish_eq]
  refine Proc.after_act (Proc.after_act (Proc.after_act ?_))
  rw [hanswers.publish]
  exact h _

theorem returned_pure (s' : Shared) : (Pure.pure () : Handler Unit).After answer t Returned s' := rfl

theorem returned_perform {orderId : Uuid} {correlationId : String} {decision : Decision} {db : Db}
    (hanswers : Answers answer db) (hfail : ∀ e, decision ≠ .fail e) :
    (perform orderId correlationId decision).After answer t Returned s := by
  have hbind : ∀ p : Handler Unit, (p >>= Pure.pure) = p := bind_pure
  cases decision with
  | ignore => rfl
  | fail e => exact absurd rfl (hfail e)
  | start context =>
    refine after_publish hanswers fun s' => Proc.after_act ?_
    show Proc.After answer t Returned (saveRow _ _) _
    rw [← hbind (saveRow _ _)]
    exact after_saveRow returned_pure
  | resave row =>
    show Proc.After answer t Returned (saveRow _ _) s
    rw [← hbind (saveRow _ _)]
    exact after_saveRow returned_pure
  | advance row context =>
    refine Proc.after_act (after_publish hanswers fun s' => ?_)
    rw [← hbind (saveRow _ _)]
    exact after_saveRow returned_pure
  | complete row context =>
    refine Proc.after_act (after_saveRow fun s' => ?_)
    rw [← hbind (SagaCommandProducer.publish _ _ _)]
    exact after_publish hanswers returned_pure
  | cancel row context step =>
    refine Proc.after_act (after_saveRow fun s' => ?_)
    rw [← hbind (SagaCommandProducer.publish _ _ _)]
    exact after_publish hanswers returned_pure

/-- An open saga is at one of its steps. -/
theorem decideEvent_ne_fail {found : Option SagaInstanceRow} {type : EventType} {payload : Payload}
    (hindex : ∀ row, found = some row → row.currentStepIndex ≤ 1) (e : Err) :
    decideEvent found type payload ≠ .fail e := by
  intro heq
  cases found with
  | none => cases heq
  | some row =>
    have hle := hindex row rfl
    unfold decideEvent at heq
    simp only at heq
    split at heq
    · cases heq
    · obtain hzero | hone : row.currentStepIndex = 0 ∨ row.currentStepIndex = 1 := by omega
      · simp only [hzero] at heq
        split at heq
        · cases heq
        · split at heq <;> cases heq
      · simp only [hone] at heq
        split at heq
        · cases heq
        · split at heq <;> cases heq

/-- The handler of an event that was published. -/
theorem returned_dispatch {e : EventEnvelope} {topic : Topic}
    (hpublished : Published s topic (.event e)) (hI : CheckoutInv s) (hsagas : SagaProgress s)
    (hanswers : Answers answer s.db) :
    (SagaEventConsumer.dispatch e).After answer t Returned s := by
  have hannounced := hI.events topic e hpublished
  obtain ⟨hnone, hpure | ⟨err, hthrow⟩⟩ | ⟨o, decision, hdec, hdispatch⟩ := dispatch_cases e
  · rw [hpure]
    rfl
  · -- a field of ORDER_CREATED would be missing
    exfalso
    unfold SagaEventConsumer.dispatch at hthrow
    by_cases htype : e.type = .orderCreated
    · unfold decisionOf at hnone
      rw [htype] at hannounced
      rw [if_pos htype] at hnone
      generalize e.payload = payload at hannounced hnone
      cases hannounced with
      | orderCreated _ => cases hnone
    · simp only [if_neg htype] at hthrow
      cases hfilter : e.payload.orderId.filter (· ≠ "") with
      | none =>
        rw [hfilter] at hthrow
        cases hthrow
      | some o =>
        unfold decisionOf at hnone
        simp only [if_neg htype, hfilter] at hnone
        cases hnone
  · rw [hdispatch]
    refine Proc.after_read (returned_perform hanswers fun err => ?_)
    obtain ⟨-, ⟨-, items, -, rfl⟩ | ⟨-, -, rfl⟩⟩ := decisionOf_cases hdec
    · cases Store.row s.db (.sagaInstance o) with
      | none =>
        intro heq
        cases heq
      | some row =>
        intro heq
        cases heq
    · exact decideEvent_ne_fail (hsagas.index o) err

end Handlers

/-! ## New ids -/

/-- The id that a row is kept under. -/
def Key.id : Key → Uuid
  | .stockLevel sku => sku
  | .eventStore _ id _ | .outbox _ id | .projection _ id => id
  | .paymentOfOrder id | .sagaInstance id => id

/-- No row is kept under the id. -/
def NewId (db : Db) (id : Uuid) : Prop := id ≠ "" ∧ id ∉ db.map fun entry => entry.1.id

instance (db : Db) (id : Uuid) : Decidable (NewId db id) := inferInstanceAs (Decidable (_ ∧ _))

/-- The provider's answers, and one id for all that is drawn. -/
def supplying (provider : AuthorizeParams → AuthorizeResult) (id : Uuid) (k : ℕ) :
    (a : Act) → Act.Reply a
  | .randomUUID => id
  | .randomUUIDs => fun _ => id
  | .authorize params => ⟨true, .ok (provider params)⟩
  | a => allWell k a

section NewId

variable {db : Db} {id : Uuid}

theorem NewId.row_none (h : NewId db id) {k : Key} (hk : k.id = id) : Store.row db k = none := by
  cases hrow : Store.row db k with
  | none => rfl
  | some row =>
    obtain ⟨entry, hmem, rfl⟩ := List.mem_map.mp (Store.mem_keys_of_row hrow)
    exact absurd (List.mem_map.mpr ⟨entry, hmem, hk⟩) h.2

theorem answers_supplying {provider : AuthorizeParams → AuthorizeResult} (h : NewId db id) :
    Answers (supplying provider id) db where
  authorize := fun _ _ => ⟨_, rfl⟩
  refund := fun _ _ _ _ => ⟨_, rfl⟩
  randomUUID := fun _ _ _ => h.row_none rfl
  uuid_ne := fun _ => h.1
  publish := fun _ _ _ _ => rfl
  commitOffsets := fun _ _ _ _ => rfl

end NewId

/-! ## Every task -/

section Tasks

variable {c : Checkout} {answer : ℕ → (a : Act) → Act.Reply a} {t : Task}

theorem CheckoutReach.calls (h : CheckoutReach c) : CallInv c.shared :=
  callInv_of_reach rfl (fun _ _ ht => ht) (fun _ hs => hs) h.reach

theorem CheckoutReach.created (h : CheckoutReach c) : CreatedInv c.shared :=
  createdInv_of_reach rfl (fun _ _ ht => ht) (fun _ hs => hs) h.reach

/-- Only a request draws the id of an order. -/
theorem run_draws (hdb : Consistent c.shared.db) (ht : ¬ t.IsRequest) {t' : Task} {id : Uuid}
    (ht' : t'.IsRequest) (h : Event.acted t' .randomUUID id ∈ (c.run answer t).trace) :
    Event.acted t' .randomUUID id ∈ c.shared.trace := by
  refine (code_keeps (I := fun s => Event.acted t' .randomUUID id ∈ s.trace →
    Event.acted t' .randomUUID id ∈ c.shared.trace) hdb (fun h => h)
    fun seen s s' _ hI hstep hmem => ?_).2 h
  obtain hold | ⟨rfl, -, -⟩ := hstep.new_event hmem
  · exact hI hold
  · exact absurd ht' ht

/-- No task but a request takes the room of the orders. -/
theorem Roomy.run (hroomy : Roomy c.shared) (hdb : Consistent c.shared.db) (ht : ¬ t.IsRequest) :
    Roomy (c.run answer t) := by
  have hkeeps : KeepsLevels c.shared.db (c.run answer t).db :=
    (code_keeps (I := fun s => KeepsLevels c.shared.db s.db) hdb (.of_eq fun _ => rfl)
      fun seen s s' _ hI hstep => hI.trans hstep.keepsLevels).2
  constructor
  · exact fun _ _ _ _ hmem => hroomy.requests _ _ _ _ (run_draws hdb ht trivial hmem)
  · intro sku row' hrow'
    obtain ⟨row, hrow, -, hint⟩ := hkeeps sku row' hrow'
    exact hint (hroomy.counters sku row hrow)
  · intro customerId items correlationId o hmem
    exact (hroomy.orders _ _ _ _ (run_draws hdb ht trivial hmem)).keepsLevels hkeeps

/-- **A task whose message is there succeeds.** -/
theorem succeeds_of_ready (provider : AuthorizeParams → AuthorizeResult) {id : Uuid}
    (h : CheckoutReach c) (hroomy : Roomy c.shared) (hready : c.Ready t)
    (hnew : NewId c.shared.db id) : c.Succeeds (supplying provider id) t := by
  have hanswers : Answers (supplying provider id) c.shared.db := answers_supplying hnew
  have hdb := h.sound.consistent
  have hpayment : ∀ k, HasStream .payment c.shared.db (supplying provider id k .randomUUID) [] := by
    intro k
    obtain ⟨rows, hrows⟩ := hdb.stream .payment id
    cases rows with
    | nil => exact hrows
    | cons r more =>
      have hfirst := hrows.2 0
      rw [hnew.row_none (k := .eventStore .payment id 1) rfl] at hfirst
      cases hfirst
  refine ⟨hready, hanswers, ?_⟩
  show Proc.After _ _ Returned _ _
  cases t with
  | createOrder customerId items correlationId => rfl
  | command svc r =>
    exact returned_eachMessage hanswers (returned_consumer hready hdb h.sound.inv h.calls h.created
      hroomy hanswers hpayment)
  | event r =>
    exact returned_eachMessage hanswers (returned_dispatch hready h.sound.inv
      (progressInv_of_reach h).sagas hanswers)
  | relay svc oid =>
    obtain ⟨row, hrow⟩ := Option.isSome_iff_exists.mp hready
    refine Proc.after_read ?_
    simp only [hrow]
    rfl

end Tasks

end Saganova
