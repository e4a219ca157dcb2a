import Saganova.ServiceProtocol

/-!
# Every handler keeps the protocol

The rules for the parts that handlers share (a field, a load, a save), and then
one lemma for each handler, ending in `code_wp`: whatever the interleaving and
whatever the outside answers, a task takes only the steps of `ServiceStep`.
-/

namespace Saganova

open Concurrency

section Rules

variable {S : System} {t : Task} {seen : Db} {s : Shared}

/-- Go on where the result satisfies `p`; nothing is asked after an error. -/
abbrev okPost {α : Type} (p : α → Shared → Prop) : Post Row Err Act.Reply Task α :=
  .onOk (fun a _ s => p a s) fun _ _ _ => True

theorem wp_field {α β : Type} {p : β → Shared → Prop} (o : Option α) {f : α → Handler β}
    (h : ∀ a, o = some a → (f a).wp S serviceProtocol t (okPost p) seen s) :
    (field o >>= f).wp S serviceProtocol t (okPost p) seen s := by
  cases o with
  | none => trivial
  | some a => exact h a rfl

/-- An allowed action, and then the rest. -/
theorem wp_acted {α : Type} {Q : Post Row Err Act.Reply Task α} (a : Act)
    {next : Act.Reply a → Handler α} (ha : ∀ s', Grows s s' → Allowed s' seen t a)
    (h : ∀ s' res, Grows s s' → Event.acted t a res ∈ s'.trace →
      (next res).wp S serviceProtocol t Q seen s') :
    Proc.wp S serviceProtocol t Q (.act a next) seen s := by
  intro s' hgrow hinv res _ _
  refine ⟨.acted a res (ha s' hgrow), h _ res (hgrow.trans (grows_acted s' t a res)) ?_⟩
  rw [Shared.acted_trace]
  exact List.mem_cons_self

/-- Loading finds no events, or the aggregate that the stream replays to. -/
theorem wp_loadAggregate {α : Type} {Q : Post Row Err Act.Reply Task α} (svc : Service)
    (id : String) {f : Option svc.Aggregate → Handler α}
    (hnone : ∀ s', Grows s s' → (f none).wp S serviceProtocol t Q s'.db s')
    (hsome : ∀ s' rows, Grows s s' → HasStream svc s'.db id rows → rows ≠ [] →
      (f (some (loaded svc id rows))).wp S serviceProtocol t Q s'.db s') :
    (loadAggregate svc id >>= f).wp S serviceProtocol t Q seen s := by
  unfold loadAggregate
  rw [Proc.select_bind]
  intro s' hgrow hinv _
  obtain ⟨rows, hrows⟩ := Consistent.stream hinv svc id
  show (f (hydrateFrom svc id (loadStream svc s'.db id))).wp S serviceProtocol t Q s'.db s'
  rw [hydrateFrom_loadStream hrows]
  by_cases hnil : rows = []
  · rw [if_pos hnil]
    exact hnone s' hgrow
  · rw [if_neg hnil]
    exact hsome s' rows hgrow hrows hnil

theorem Appends.mono {svc : Service} {id : String} {rows : List (EventStoreRow svc)}
    {r : EventStoreRow svc} {s' : Shared} (h : Appends s t svc id rows r)
    (htrace : s.trace <:+ s'.trace) : Appends s' t svc id rows r := by
  cases h with
  | created h₁ h₂ h₃ h₄ => exact .created h₁ h₂ h₃ h₄
  | confirmed h₁ h₂ h₃ h₄ h₅ => exact .confirmed h₁ h₂ h₃ h₄ h₅
  | cancelled h₁ h₂ h₃ h₄ h₅ => exact .cancelled h₁ h₂ h₃ h₄ h₅
  | charged h₁ h₂ hmem => exact .charged h₁ h₂ (htrace.subset hmem)
  | refunded h₁ h₂ h₃ h₄ => exact .refunded h₁ h₂ h₃ h₄
  | reserved h₁ h₂ h₃ => exact .reserved h₁ h₂ h₃
  | failed h₁ h₂ => exact .failed h₁ h₂
  | released h₁ h₂ h₃ h₄ => exact .released h₁ h₂ h₃ h₄

section Save

variable {svc : Service} {id correlationId : String} {rows : List (EventStoreRow svc)}
  {event : svc.Event} {time : Time} {ids : ℕ → Uuid}

/-- A stream begins with `rows`, now and later. -/
def Begins (svc : Service) (id : String) (rows : List (EventStoreRow svc)) (s : Shared) : Prop :=
  ∀ s', Grows s s' → Consistent s'.db → ∃ more, HasStream svc s'.db id (rows ++ more)

theorem begins_nil : Begins svc id [] s := by
  intro s' _ hdb
  exact hdb.stream svc id

theorem begins_of_stream (h : HasStream svc s.db id rows) : Begins svc id rows s :=
  fun _ hgrow _ => hgrow.stream h

theorem Begins.grow {s' : Shared} (h : Begins svc id rows s) (hgrow : Grows s s') :
    Begins svc id rows s' :=
  fun s'' hgrow' => h s'' (hgrow.trans hgrow')

/-- A commit of a save, after what its event does to the stock, is a step. -/
theorem serviceStep_of_runs (hdb : Consistent s.db) {db w : Db}
    (hstock : StockEffect svc rows event s.db db) (hrows : Begins svc id rows s)
    (happ : Appends s t svc id rows (eventRow svc event time correlationId))
    (hkeep : rows ≠ [] → KeepsColumns svc (replay svc rows) (svc.when (replay svc rows) event))
    (h : Tx.Runs db (persist svc (withEvent svc id rows event time) correlationId ids) ()
      (w ++ s.db)) :
    ServiceStep t seen s (s.commit t w) ∧
      HasStream svc (s.commit t w).db id (rows ++ [eventRow svc event time correlationId]) := by
  obtain ⟨more, hmore⟩ := hrows s (Grows.refl s) hdb
  have hsaved := saved_of_runs (hdb.beside fun _ hk => hstock.onlyStock.beside hk)
    (hstock.onlyStock.stream.mpr hmore) hkeep h
  exact ⟨.appended w happ hstock hsaved ⟨_, _, _, _, rfl, rfl, h⟩, hsaved.stream'⟩

variable (id rows) in
/-- `save` of a new event of an order or a payment. -/
theorem wp_save {Q : Post Row Err Act.Reply Task svc.Aggregate} (hsvc : svc ≠ .inventory)
    (hrows : Begins svc id rows s)
    (happ : Appends s t svc id rows (eventRow svc event time correlationId))
    (hkeep : rows ≠ [] → KeepsColumns svc (replay svc rows) (svc.when (replay svc rows) event))
    (hok : ∀ s' agg, Consistent s'.db →
      HasStream svc s'.db id (rows ++ [eventRow svc event time correlationId]) → Q (.ok agg) seen s')
    (herror : ∀ e s', Q (.error e) seen s') :
    (save svc (withEvent svc id rows event time) correlationId).wp S serviceProtocol t Q seen s := by
  have hstock : ∀ db, StockEffect svc rows event db db := by
    intro db
    cases svc with
    | order => rfl
    | payment => rfl
    | inventory => exact absurd rfl hsvc
  unfold save
  rw [if_neg (by simp), randomUUIDs_bind]
  refine wp_acted .randomUUIDs (fun _ _ => trivial) fun s₁ ids h₁ _ => ?_
  refine Proc.wp_bind _ _ (Proc.wp_tryCatch _ _ ?_)
  intro s₂ h₂ hinv
  refine ⟨fun w hw _ => ?_, fun e _ _ => herror _ _⟩
  have hgrow : Grows s s₂ := h₁.trans h₂
  obtain ⟨hstep, hstream⟩ := serviceStep_of_runs hinv (hstock s₂.db) (hrows.grow hgrow)
    (happ.mono hgrow.trace) hkeep (Tx.runs_of_exec hw)
  exact ⟨hstep, hok _ _ (hstep.consistent hinv) hstream⟩

end Save

end Rules

/-! ## Orders -/

section Order

variable {S : System} {r : Record CommandEnvelope} {seen : Db} {s : Shared}

theorem wp_createOrder {orderId customerId : Uuid} {items : List OrderLineItem}
    (htype : r.value.type = .createOrder) (hid : r.value.payload.orderId = some orderId)
    (hcustomer : r.value.payload.customerId = some customerId)
    (hitems : r.value.payload.items = some items) :
    (CreateOrderHandler.execute { orderId, customerId, items, correlationId := r.value.correlationId
        }).wp S serviceProtocol (.command .order r) (okPost fun _ _ => True) seen s := by
  unfold CreateOrderHandler.execute
  rw [now_bind]
  refine wp_acted .now (fun _ _ => trivial) fun s₁ time h₁ _ => ?_
  refine Proc.wp_tryCatch _ _ (Proc.wp_bind _ _ ?_)
  refine wp_save orderId [] (by simp) begins_nil
    (.created htype hid hcustomer hitems) (fun h => absurd rfl h) (fun _ _ _ _ => trivial)
    fun e s' => ?_
  cases e <;> trivial

/-- A confirmed or cancelled order keeps its other columns. -/
theorem keeps_confirmed (state : OrderState) (p : OrderConfirmedPayload) :
    KeepsColumns .order state (OrderAggregate.when state (.orderConfirmed p)) :=
  ⟨nofun, id⟩

theorem keeps_cancelled (state : OrderState) (p : OrderCancelledPayload) :
    KeepsColumns .order state (OrderAggregate.when state (.orderCancelled p)) :=
  ⟨id, nofun⟩

theorem wp_confirmOrder {orderId paymentId : Uuid} (htype : r.value.type = .confirmOrder)
    (hid : r.value.payload.orderId = some orderId)
    (hpayment : r.value.payload.paymentId = some paymentId) :
    (ConfirmOrderHandler.execute { orderId, paymentId, correlationId := r.value.correlationId
        }).wp S serviceProtocol (.command .order r) (okPost fun _ _ => True) seen s := by
  unfold ConfirmOrderHandler.execute
  refine wp_loadAggregate .order orderId (fun _ _ => trivial) fun s₁ rows h₁ hrows hne => ?_
  simp only [now_bind]
  refine wp_acted .now (fun _ _ => trivial) fun s₂ time h₂ _ => ?_
  unfold OrderAggregate.confirm
  by_cases hstatus : (loaded .order orderId rows).state.status ≠ .created
  · rw [if_pos hstatus]
    trivial
  · rw [if_neg hstatus]
    refine Proc.wp_bind _ _ (wp_save orderId rows (by simp)
      ((begins_of_stream hrows).grow h₂) (.confirmed htype hid hpayment hne (not_not.mp hstatus))
      (fun _ => keeps_confirmed _ _) (fun _ _ _ _ => trivial) fun _ _ => trivial)

theorem wp_cancelOrder {orderId : Uuid} {reason : String} (htype : r.value.type = .cancelOrder)
    (hid : r.value.payload.orderId = some orderId)
    (hreason : r.value.payload.reason = some reason) :
    (CancelOrderHandler.execute { orderId, reason, correlationId := r.value.correlationId
        }).wp S serviceProtocol (.command .order r) (okPost fun _ _ => True) seen s := by
  unfold CancelOrderHandler.execute
  refine wp_loadAggregate .order orderId (fun _ _ => trivial) fun s₁ rows h₁ hrows hne => ?_
  simp only [now_bind]
  refine wp_acted .now (fun _ _ => trivial) fun s₂ time h₂ _ => ?_
  unfold OrderAggregate.cancel
  by_cases hstatus : (loaded .order orderId rows).state.status = .cancelled ∨
      (loaded .order orderId rows).state.status = .confirmed
  · rw [if_pos hstatus]
    trivial
  · rw [if_neg hstatus]
    refine Proc.wp_bind _ _ (wp_save orderId rows (by simp)
      ((begins_of_stream hrows).grow h₂) (.cancelled htype hid hreason hne hstatus)
      (fun _ => keeps_cancelled _ _) (fun _ _ _ _ => trivial) fun _ _ => trivial)

theorem wp_orderDispatch : (OrderKafkaConsumer.dispatch r.value).wp S serviceProtocol
    (.command .order r) (okPost fun _ _ => True) seen s := by
  unfold OrderKafkaConsumer.dispatch
  simp only
  split
  · rename_i htype
    exact wp_field _ fun orderId hid => wp_field _ fun customerId hcustomer =>
      wp_field _ fun items hitems => wp_createOrder htype hid hcustomer hitems
  · rename_i htype
    exact wp_field _ fun orderId hid => wp_field _ fun paymentId hpayment =>
      wp_confirmOrder htype hid hpayment
  · rename_i htype
    exact wp_field _ fun orderId hid => wp_field _ fun reason hreason =>
      wp_cancelOrder htype hid hreason
  · trivial

end Order

/-! ## Payments -/

section Payment

variable {S : System} {r : Record CommandEnvelope} {seen : Db} {s : Shared}

/-- An order that has a payment with events is in the index. -/
theorem index_of_stream {paymentId : Uuid} {rows : List (EventStoreRow .payment)}
    (hdb : Consistent s.db) (hrows : HasStream .payment s.db paymentId rows) (hne : rows ≠ []) :
    Store.row s.db (.paymentOfOrder (replay .payment rows).orderId) = some paymentId := by
  obtain ⟨row, hrow, horder, -⟩ := (hdb.projected hrows).some_of_ne hne
  exact (hdb.index _ _).mpr ⟨row, hrow, horder⟩

theorem event_orderId (command : AuthorizePaymentCommand) (paymentId : Uuid)
    (result : AuthorizeResult) (state : PaymentState) :
    (PaymentAggregate.when state
      (AuthorizePaymentHandler.event command paymentId result)).orderId = command.orderId := by
  unfold AuthorizePaymentHandler.event
  split <;> rfl

theorem aggregate_eq (command : AuthorizePaymentCommand) (paymentId : Uuid)
    (result : AuthorizeResult) (time : Time) :
    AuthorizePaymentHandler.aggregate command paymentId result time =
      withEvent .payment paymentId [] (AuthorizePaymentHandler.event command paymentId result)
        time := by
  unfold AuthorizePaymentHandler.aggregate AuthorizePaymentHandler.event
  split <;> rfl

theorem wp_authorizePayment {command : AuthorizePaymentCommand}
    (hcommand : IsAuthorizePayment r.value command) :
    (AuthorizePaymentHandler.execute command).wp S serviceProtocol (.command .payment r)
      (okPost fun _ s => (Store.row s.db (.paymentOfOrder command.orderId)).isSome) seen s := by
  unfold AuthorizePaymentHandler.execute PaymentProjectionRepository.findByOrderId
  rw [Proc.select_bind]
  intro s₁ h₁ hinv₁ _
  cases hindex : Store.row s₁.db (.paymentOfOrder command.orderId) with
  | some paymentId =>
    obtain ⟨row, hrow, -⟩ := (Consistent.index hinv₁ _ _).mp hindex
    simp only [hindex, hrow, Option.bind_eq_bind, Option.bind_some]
    exact Option.isSome_iff_exists.mpr ⟨_, hindex⟩
  | none =>
    simp only [hindex, Option.bind_eq_bind, Option.bind_none, randomUUID_bind,
      PaymentGateway.authorize_bind]
    refine wp_acted .randomUUID (fun _ _ => trivial) fun s₂ paymentId h₂ _ => ?_
    refine wp_acted (.authorize _) (fun _ _ => ⟨r, command, rfl, hcommand, rfl⟩)
      fun s₃ reply h₃ hcalled => ?_
    cases hanswer : reply.answer with
    | error e =>
      rw [Proc.ofExcept_error, Proc.throw_bind]
      trivial
    | ok result =>
      rw [Proc.ofExcept_ok, pure_bind, now_bind]
      refine wp_acted .now (fun _ _ => trivial) fun s₄ time h₄ _ => ?_
      rw [aggregate_eq]
      refine Proc.wp_bind _ _ (wp_save paymentId [] (by simp) begins_nil
        (.charged hcommand hanswer (h₄.trace.subset hcalled)) (fun h => absurd rfl h)
        (fun s₅ _ hinv₅ hstream => ?_) fun _ _ => trivial)
      have hindex := index_of_stream hinv₅ hstream (by simp)
      rw [List.nil_append, show replay .payment [_] = PaymentAggregate.when _ _ from rfl,
        eventRow, event_orderId] at hindex
      exact Option.isSome_iff_exists.mpr ⟨_, hindex⟩

/-- A refunded payment keeps its other columns. -/
theorem keeps_refunded (state : PaymentState) (p : PaymentRefundedPayload) :
    KeepsColumns .payment state (PaymentAggregate.when state (.paymentRefunded p)) := by
  refine ⟨rfl, id, id, fun hnone => ?_⟩
  have hnone' : (p.reason <|> state.reason) = none := hnone
  cases hreason : p.reason with
  | some reason =>
    rw [hreason] at hnone'
    cases hnone'
  | none =>
    rw [hreason] at hnone'
    exact hnone'

theorem wp_refundPayment {command : RefundPaymentCommand} (htype : r.value.type = .refundPayment)
    (hid : r.value.payload.paymentId = some command.paymentId)
    (hcorrelation : r.value.correlationId = command.correlationId) :
    (RefundPaymentHandler.execute command).wp S serviceProtocol (.command .payment r)
      (okPost fun _ _ => True) seen s := by
  unfold RefundPaymentHandler.execute
  refine wp_loadAggregate .payment command.paymentId (fun _ _ => trivial)
    fun s₁ rows h₁ hrows hne => ?_
  simp only
  split
  · trivial
  · rename_i pspReference _
    refine Proc.wp_bind _ _ (Proc.wp_tryCatch _ _ ?_)
    rw [PaymentGateway.refund_bind]
    refine wp_acted (.refund _ _ _) (fun _ _ => ⟨r, rfl, htype⟩) fun s₂ reply h₂ _ => ?_
    cases reply with
    | error e => cases e <;> trivial
    | ok refund =>
      rw [Proc.ofExcept_ok, pure_bind, now_bind]
      refine wp_acted .now (fun _ _ => trivial) fun s₃ time h₃ _ => ?_
      unfold PaymentAggregate.refund
      by_cases hstatus : (loaded .payment command.paymentId rows).state.status ≠ .authorized
      · rw [if_pos hstatus]
        trivial
      · rw [if_neg hstatus]
        show Proc.wp S serviceProtocol (.command .payment r) (okPost fun _ _ => True)
          (do let _ ← Saganova.save .payment _ command.correlationId) s₁.db _
        refine Proc.wp_bind _ _ (wp_save command.paymentId rows (by simp)
          ((begins_of_stream hrows).grow (h₂.trans h₃)) ?_ (fun _ => keeps_refunded _ _)
          (fun _ _ _ _ => trivial) fun _ _ => trivial)
        rw [← hcorrelation]
        exact .refunded htype hid hne (not_not.mp hstatus)

theorem wp_paymentDispatch : (PaymentKafkaConsumer.dispatch r.value).wp S serviceProtocol
    (.command .payment r) (okPost fun _ s => ∀ command, IsAuthorizePayment r.value command →
      (Store.row s.db (.paymentOfOrder command.orderId)).isSome) seen s := by
  unfold PaymentKafkaConsumer.dispatch
  -- the obligation is vacuous for a record of another type
  have other : ∀ {s : Shared}, r.value.type ≠ .authorizePayment →
      ∀ command, IsAuthorizePayment r.value command →
        (Store.row s.db (.paymentOfOrder command.orderId)).isSome :=
    fun hne command hcommand => absurd hcommand.type hne
  simp only
  split
  · rename_i htype
    refine wp_field _ fun orderId hid => wp_field _ fun customerId hcustomer =>
      wp_field _ fun amountCents hamount => ?_
    refine Proc.wp_mono ?_ _ (wp_authorizePayment ⟨htype, hid, hcustomer, hamount, rfl⟩)
    intro res seen s h
    cases res with
    | error e => trivial
    | ok u =>
      intro command hcommand
      cases hid.symm.trans hcommand.orderId
      exact h
  · rename_i htype
    refine wp_field _ fun orderId _ => wp_field _ fun paymentId hid => wp_field _ fun amount _ => ?_
    refine Proc.wp_mono ?_ _ (wp_refundPayment htype hid rfl)
    intro res seen s _
    cases res with
    | error e => trivial
    | ok u => exact other (by rw [htype]; simp)
  · rename_i hauthorize _
    exact other hauthorize

end Payment

/-! ## Inventory -/

section Inventory

variable {S : System} {r : Record CommandEnvelope} {seen : Db} {s : Shared}

/-- The inventory's save runs as the shared one does; only its error differs. -/
theorem runs_saveWithinTransaction {id correlationId : String}
    {rows : List (EventStoreRow .inventory)} {event : InventoryEvent} {time : Time}
    {ids : ℕ → Uuid} {db db' : Db} :
    Tx.Runs db (InventoryEventStoreRepository.saveWithinTransaction
        (withEvent .inventory id rows event time) correlationId ids) () db' ↔
      Tx.Runs db (persist .inventory (withEvent .inventory id rows event time) correlationId ids)
        () db' := by
  unfold InventoryEventStoreRepository.saveWithinTransaction
  rw [if_neg (by simp), Tx.runs_mapError]

theorem insert_avoids {bad : Err → Prop} (hbad : ¬ bad .uniqueViolation) (k : Key) (row : Row k) :
    (insert k row).Avoids bad := by
  intro found
  cases found with
  | some old => exact hbad
  | none => trivial

theorem updateReserved_avoids {bad : Err → Prop} (hbad : ∀ message, ¬ bad (.queryFailed message))
    (sku : String) (f : ℤ → Num) : (StockRepository.updateReserved sku f).Avoids bad := by
  intro found
  cases found with
  | none => trivial
  | some row =>
    dsimp only
    split
    · trivial
    · exact hbad _

/-- Every error of the inventory's save is a `ConcurrencyError`. -/
theorem saveWithinTransaction_avoids {bad : Err → Prop}
    (hbad : ∀ id version, ¬ bad (.concurrencyError id version)) (aggregate : StockAggregate)
    (correlationId : String) (ids : ℕ → Uuid) :
    (InventoryEventStoreRepository.saveWithinTransaction aggregate correlationId ids).Avoids
      bad := by
  have hbad : ¬ bad (toConcurrencyError .inventory aggregate .uniqueViolation) := hbad _ _
  have hevents : ∀ n events, (appendEvents .inventory aggregate.id correlationId ids n events).Avoids
      fun e => bad (toConcurrencyError .inventory aggregate e) := by
    intro n events
    induction events generalizing n with
    | nil => trivial
    | cons event events ih =>
      exact (insert_avoids hbad _ _).bind fun _ => (insert_avoids hbad _ _).bind fun _ => ih (n + 1)
  unfold InventoryEventStoreRepository.saveWithinTransaction
  split
  · trivial
  · refine Tx.Avoids.mapError (Tx.Avoids.bind (hevents _ _) fun _ => ?_)
    intro found
    cases found with
    | some old => trivial
    | none => exact insert_avoids hbad _ _

/-- A released reservation keeps its other columns. -/
theorem keeps_released (state : StockAggregateState) (p : InventoryReleasedPayload) :
    KeepsColumns .inventory state (StockAggregate.when state (.inventoryReleased p)) :=
  ⟨id, id, id⟩

/-- The record of a failed reservation. -/
theorem wp_saveFailed {orderId : Uuid} {sku reason : String} {time : Time}
    (htype : r.value.type = .reserveStock) (hid : r.value.payload.orderId = some orderId) :
    (InventoryEventStoreRepository.save (StockAggregate.failed orderId sku reason time)
      r.value.correlationId).wp S serviceProtocol (.command .inventory r)
      (okPost fun _ _ => True) seen s := by
  unfold InventoryEventStoreRepository.save
  rw [randomUUIDs_bind]
  refine wp_acted .randomUUIDs (fun _ _ => trivial) fun s₁ ids h₁ _ => ?_
  refine Proc.wp_bind _ _ ?_
  intro s₂ h₂ hinv
  refine ⟨fun w hw _ => ⟨?_, trivial⟩, fun e _ _ => trivial⟩
  have hstock : StockEffect .inventory []
    (.inventoryReservationFailed { orderId, sku, reason }) s₂.db s₂.db := rfl
  exact (serviceStep_of_runs hinv hstock begins_nil (.failed htype hid) (fun h => absurd rfl h)
    (runs_saveWithinTransaction.mp (Tx.runs_of_exec hw))).1

theorem wp_reserveStock {orderId : Uuid} {lines : List ReservationLine}
    (htype : r.value.type = .reserveStock) (hid : r.value.payload.orderId = some orderId)
    (hlines : r.value.payload.lines = some lines) :
    (ReserveStockHandler.execute { orderId, lines, correlationId := r.value.correlationId
        }).wp S serviceProtocol (.command .inventory r) (okPost fun _ _ => True) seen s := by
  unfold ReserveStockHandler.execute ReservationProjectionRepository.findByOrderId
  rw [Proc.select_bind]
  intro s₁ h₁ hinv₁ _
  cases hfound : Store.row s₁.db (.projection .inventory orderId) with
  | some row =>
    simp only [hfound]
    trivial
  | none =>
    simp only [hfound, randomUUID_bind, now_bind, randomUUIDs_bind]
    refine wp_acted .randomUUID (fun _ _ => trivial) fun s₂ reservationId h₂ _ => ?_
    refine wp_acted .now (fun _ _ => trivial) fun s₃ time h₃ _ => ?_
    refine wp_acted .randomUUIDs (fun _ _ => trivial) fun s₄ ids h₄ _ => ?_
    refine Proc.wp_tryCatch _ _ ?_
    intro s₅ h₅ hinv₅
    refine ⟨fun w hw _ => ⟨?_, trivial⟩, fun e _ _ => ?_⟩
    · obtain ⟨_, db, hreserve, hsave⟩ := Tx.runs_bind.mp (Tx.runs_of_exec hw)
      have hstock : StockEffect .inventory []
        (.inventoryReserved { reservationId, orderId, lines }) s₅.db db := hreserve
      exact (serviceStep_of_runs hinv₅ hstock begins_nil (.reserved htype hid hlines)
        (fun h => absurd rfl h) (runs_saveWithinTransaction.mp hsave)).1
    · cases e with
      | insufficientStock sku reason =>
        show Proc.wp S serviceProtocol (.command .inventory r) (okPost fun _ _ => True)
          (.act .now _) s₁.db s₅
        refine wp_acted .now (fun _ _ => trivial) fun s₆ time h₆ _ => ?_
        refine Proc.wp_bind _ _ (Proc.wp_mono ?_ _ (wp_saveFailed htype hid))
        intro res _ _ _
        cases res <;> trivial
      | _ => trivial

theorem wp_releaseInventory {orderId reservationId : Uuid}
    (htype : r.value.type = .releaseInventory) (hid : r.value.payload.orderId = some orderId) :
    (ReleaseInventoryHandler.execute { orderId, reservationId
                                       correlationId := r.value.correlationId
        }).wp S serviceProtocol (.command .inventory r) (okPost fun _ _ => True) seen s := by
  unfold ReleaseInventoryHandler.execute
  refine wp_loadAggregate .inventory orderId (fun _ _ => trivial) fun s₁ rows h₁ hrows hne => ?_
  simp only [now_bind, randomUUIDs_bind]
  refine wp_acted .now (fun _ _ => trivial) fun s₂ time h₂ _ => ?_
  refine wp_acted .randomUUIDs (fun _ _ => trivial) fun s₃ ids h₃ _ => ?_
  refine Proc.wp_tryCatch _ _ ?_
  intro s₄ h₄ hinv
  refine ⟨fun w hw _ => ⟨?_, trivial⟩, fun e _ _ => by cases e <;> trivial⟩
  obtain ⟨_, db, hrelease, hrest⟩ := Tx.runs_bind.mp (Tx.runs_of_exec hw)
  unfold StockAggregate.release at hrest
  by_cases hstatus : (loaded .inventory orderId rows).state.status ≠ .reserved
  · rw [if_pos hstatus] at hrest
    exact absurd hrest Tx.runs_throw
  · rw [if_neg hstatus] at hrest
    let p : InventoryReleasedPayload :=
      { reservationId := (replay .inventory rows).reservationId, orderId }
    have hstock : StockEffect .inventory rows (.inventoryReleased p) s₄.db db := hrelease
    exact (serviceStep_of_runs hinv hstock ((begins_of_stream hrows).grow
      ((h₂.trans h₃).trans h₄)) (.released htype hid hne (not_not.mp hstatus))
      (fun _ => keeps_released _ p) (runs_saveWithinTransaction.mp hrest)).1

theorem wp_inventoryDispatch : (InventoryKafkaConsumer.dispatch r.value).wp S serviceProtocol
    (.command .inventory r) (okPost fun _ _ => True) seen s := by
  unfold InventoryKafkaConsumer.dispatch
  simp only
  split
  · rename_i htype
    exact wp_field _ fun orderId hid => wp_field _ fun lines hlines =>
      wp_reserveStock htype hid hlines
  · rename_i htype
    exact wp_field _ fun orderId hid => wp_field _ fun reservationId _ =>
      wp_releaseInventory htype hid
  · trivial

end Inventory

/-! ## Every task -/

section Code

variable {S : System} {seen : Db} {s : Shared}

/-- Only the payment service's offsets say something. -/
theorem allowed_commitOffsets {t : Task} {topic : Topic} {partition offset : ℕ}
    (h : ∀ r, t ≠ .command .payment r) : Allowed s seen t (.commitOffsets topic partition offset) :=
  fun r ht => absurd ht (h r)

/-- A consumer commits the offset after what its handler ended with. -/
theorem wp_eachMessage {svc : Service} {r : Record CommandEnvelope} {p : Unit → Shared → Prop}
    (h : (consumer svc r.value).wp S serviceProtocol (.command svc r) (okPost p) seen s)
    (hcommit : ∀ seen s s', p () s → Grows s s' → Allowed s' seen (.command svc r)
      (.commitOffsets r.topic r.partition (r.offset + 1))) :
    (code (.command svc r)).wp S serviceProtocol (.command svc r) (fun _ _ _ => True) seen s := by
  refine Proc.wp_bind _ _ (Proc.wp_mono ?_ _ h)
  intro res seen s hp
  cases res with
  | error e => trivial
  | ok u =>
    refine wp_acted (.commitOffsets _ _ _) (fun s' hgrow => hcommit seen s s' hp hgrow)
      fun s' res _ _ => ?_
    cases res <;> trivial

theorem wp_command (svc : Service) (r : Record CommandEnvelope) :
    (code (.command svc r)).wp S serviceProtocol (.command svc r) (fun _ _ _ => True) seen s := by
  cases svc with
  | order =>
    exact wp_eachMessage wp_orderDispatch fun _ _ _ _ _ => allowed_commitOffsets (by simp)
  | inventory =>
    exact wp_eachMessage wp_inventoryDispatch fun _ _ _ _ _ => allowed_commitOffsets (by simp)
  | payment =>
    refine wp_eachMessage wp_paymentDispatch fun seen s s' hp hgrow r' heq => ?_
    cases heq
    refine ⟨⟨rfl, rfl, rfl⟩, fun command hcommand => ?_⟩
    obtain ⟨p, hindex⟩ := Option.isSome_iff_exists.mp (hp command hcommand)
    exact Option.isSome_iff_exists.mpr ⟨p, hgrow.index hindex⟩

theorem wp_gatewayRequest (customerId : Uuid) (items : List OrderLineItem)
    (correlationId : String) :
    (code (.createOrder customerId items correlationId)).wp S serviceProtocol
      (.createOrder customerId items correlationId) (fun _ _ _ => True) seen s := by
  show Proc.wp S serviceProtocol _ _ (OrdersService.createOrder customerId items correlationId) _ _
  unfold OrdersService.createOrder makeCommand
  simp only [randomUUID_bind, now_bind, Proc.act_bind]
  refine wp_acted .randomUUID (fun _ _ => trivial) fun s₁ orderId h₁ hdrawn => ?_
  refine wp_acted .randomUUID (fun _ _ => trivial) fun s₂ id h₂ _ => ?_
  refine wp_acted .now (fun _ _ => trivial) fun s₃ time h₃ _ => ?_
  refine wp_acted (.publish _ _ _) (fun s₄ h₄ => ⟨rfl, _, rfl, rfl, rfl, ?_⟩) fun s₅ res _ _ => ?_
  · exact ((h₂.trans h₃).trans h₄).trace.subset hdrawn
  · cases res <;> trivial

theorem wp_relay (svc : Service) (oid : Uuid) :
    (code (.relay svc oid)).wp S serviceProtocol (.relay svc oid) (fun _ _ _ => True) seen s := by
  show Proc.wp S serviceProtocol _ _ (relayRow svc oid) _ _
  unfold relayRow
  rw [Proc.select_bind]
  intro s₁ h₁ _ _
  cases hrow : Store.row s₁.db (.outbox svc oid) with
  | none =>
    simp only [hrow]
    trivial
  | some row =>
    simp only [hrow]
    refine wp_acted (.publish _ _ _) (fun s₂ h₂ => ⟨row, h₂.outbox hrow, rfl, rfl⟩)
      fun s₃ res _ _ => ?_
    cases res <;> trivial

theorem wp_orchestrator (r : Record EventEnvelope) :
    (code (.event r)).wp S serviceProtocol (.event r) (fun _ _ _ => True) seen s := by
  have hcommit : ∀ seen s, MayCommitOffset serviceProtocol r seen s :=
    fun _ _ _ _ _ res _ => .acted (.commitOffsets _ _ _) res (allowed_commitOffsets (by simp))
  refine wp_event r (fun db orderId decision hdec => ?_) (fun _ => hcommit _ _) ?_
  · exact ⟨fun _ id => .acted .randomUUID id trivial, fun _ time => .acted .now time trivial,
      fun _ c key res hc => .acted (.publish _ _ _) res ⟨rfl, c, orderId, decision, rfl, hdec, hc⟩⟩
  · intro s₁ _ _ _ orderId decision hdec
    exact ⟨fun row hrow s₂ _ _ _ => ⟨.sagaSaved row rfl hdec hrow, hcommit _ _⟩,
      fun _ => hcommit _ _⟩

/-- **Every task keeps the protocol.** -/
theorem wp_code (t : Task) : (code t).wp S serviceProtocol t (fun _ _ _ => True) seen s := by
  cases t with
  | createOrder customerId items correlationId => exact wp_gatewayRequest _ _ _
  | command svc r => exact wp_command svc r
  | event r => exact wp_orchestrator r
  | relay svc oid => exact wp_relay svc oid

end Code

theorem keepsServiceProtocol {S : System} {G : Guard} (hcode : S.code = code)
    (hstart : ∀ s, S.start s → Consistent s.db) : S.Keeps serviceProtocol G where
  start := hstart
  assume := fun _ _ _ _ _ _ => trivial
  code := fun _ t _ _ => by
    rw [hcode]
    exact wp_code t

end Saganova
