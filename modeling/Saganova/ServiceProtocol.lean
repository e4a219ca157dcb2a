import Saganova.EventStoreSave
import Saganova.OrchestratorReplicas

/-!
# What the handlers of the whole system do

`ServiceStep` lists every step that a task can take on what is shared: the
actions it may perform outside the database (`Allowed`), the events it may
append and why (`Appends`), what that does to the stock (`StockEffect`), and
the saga rows it may save.  `serviceProtocol` is the promise that every task
takes only such steps; `ServiceHandlers` shows that every handler keeps it.

What others may do meanwhile is `Grows`: the trace and the streams get longer,
outbox rows and index entries stay.
-/

namespace Saganova

open Concurrency

/-! ## Appended events -/

/-- The event that a gateway's answer is recorded as. -/
def AuthorizePaymentHandler.event (command : AuthorizePaymentCommand) (paymentId : Uuid)
    (result : AuthorizeResult) : PaymentEvent :=
  if result.success then
    .paymentAuthorized { paymentId, orderId := command.orderId, amountCents := command.amountCents
                         pspReference := result.pspReference }
  else
    .paymentDeclined { paymentId, orderId := command.orderId
                       declineCode := result.declineCode.getD "unknown"
                       reason := result.reason.getD "Payment declined" }

/-- What the gateway is called with. -/
def AuthorizePaymentHandler.params (command : AuthorizePaymentCommand) : AuthorizeParams where
  orderId := command.orderId
  customerId := command.customerId
  amountCents := command.amountCents
  idempotencyKey := idempotencyKey command.orderId

/-- The command that a record of AuthorizePayment carries. -/
structure IsAuthorizePayment (e : CommandEnvelope) (command : AuthorizePaymentCommand) : Prop where
  type : e.type = .authorizePayment
  orderId : e.payload.orderId = some command.orderId
  customerId : e.payload.customerId = some command.customerId
  amountCents : e.payload.amountCents = some command.amountCents
  correlationId : e.correlationId = command.correlationId

/-- The task may append the event to the stream: which command asks for it, and
what the stream shows. -/
inductive Appends (s : Shared) : Task → (svc : Service) → String → List (EventStoreRow svc) →
    EventStoreRow svc → Prop
  | created {r : Record CommandEnvelope} {orderId customerId : Uuid} {items : List OrderLineItem}
      {time : Time} : r.value.type = .createOrder → r.value.payload.orderId = some orderId →
      r.value.payload.customerId = some customerId → r.value.payload.items = some items →
      Appends s (.command .order r) .order orderId []
        (eventRow .order (.orderCreated { orderId, customerId, items
                                          totalCents := OrderAggregate.totalCents items })
          time r.value.correlationId)
  | confirmed {r : Record CommandEnvelope} {orderId paymentId : Uuid}
      {rows : List (EventStoreRow .order)} {time : Time} : r.value.type = .confirmOrder →
      r.value.payload.orderId = some orderId → r.value.payload.paymentId = some paymentId →
      rows ≠ [] → (replay .order rows).status = .created →
      Appends s (.command .order r) .order orderId rows
        (eventRow .order (.orderConfirmed { orderId, paymentId }) time r.value.correlationId)
  | cancelled {r : Record CommandEnvelope} {orderId : Uuid} {reason : String}
      {rows : List (EventStoreRow .order)} {time : Time} : r.value.type = .cancelOrder →
      r.value.payload.orderId = some orderId → r.value.payload.reason = some reason → rows ≠ [] →
      ¬ ((replay .order rows).status = .cancelled ∨ (replay .order rows).status = .confirmed) →
      Appends s (.command .order r) .order orderId rows
        (eventRow .order (.orderCancelled { orderId, reason }) time r.value.correlationId)
  | charged {r : Record CommandEnvelope} {command : AuthorizePaymentCommand} {paymentId : Uuid}
      {reply : AuthorizeReply} {result : AuthorizeResult} {time : Time} :
      IsAuthorizePayment r.value command → reply.answer = .ok result →
      Event.acted (.command .payment r) (.authorize (AuthorizePaymentHandler.params command)) reply
        ∈ s.trace →
      Appends s (.command .payment r) .payment paymentId []
        (eventRow .payment (AuthorizePaymentHandler.event command paymentId result) time
          command.correlationId)
  | refunded {r : Record CommandEnvelope} {paymentId : Uuid} {reason : Option String}
      {rows : List (EventStoreRow .payment)} {time : Time} : r.value.type = .refundPayment →
      r.value.payload.paymentId = some paymentId → rows ≠ [] →
      (replay .payment rows).status = .authorized →
      Appends s (.command .payment r) .payment paymentId rows
        (eventRow .payment (.paymentRefunded
          { paymentId, orderId := (replay .payment rows).orderId
            amountCents := (replay .payment rows).amountCents, reason }) time
          r.value.correlationId)
  | reserved {r : Record CommandEnvelope} {orderId reservationId : Uuid}
      {lines : List ReservationLine} {time : Time} : r.value.type = .reserveStock →
      r.value.payload.orderId = some orderId → r.value.payload.lines = some lines →
      Appends s (.command .inventory r) .inventory orderId []
        (eventRow .inventory (.inventoryReserved { reservationId, orderId, lines }) time
          r.value.correlationId)
  | failed {r : Record CommandEnvelope} {orderId : Uuid} {sku reason : String} {time : Time} :
      r.value.type = .reserveStock → r.value.payload.orderId = some orderId →
      Appends s (.command .inventory r) .inventory orderId []
        (eventRow .inventory (.inventoryReservationFailed { orderId, sku, reason }) time
          r.value.correlationId)
  | released {r : Record CommandEnvelope} {orderId : Uuid}
      {rows : List (EventStoreRow .inventory)} {time : Time} : r.value.type = .releaseInventory →
      r.value.payload.orderId = some orderId → rows ≠ [] →
      (replay .inventory rows).status = .reserved →
      Appends s (.command .inventory r) .inventory orderId rows
        (eventRow .inventory (.inventoryReleased
          { reservationId := (replay .inventory rows).reservationId, orderId }) time
          r.value.correlationId)

/-- What an event does to the stock before it is saved. -/
def StockEffect : (svc : Service) → List (EventStoreRow svc) → svc.Event → Db → Db → Prop
  | .inventory, _, .inventoryReserved p, db, db' =>
    Tx.Runs db (StockRepository.reserveLinesWithinTransaction p.lines) () db'
  | .inventory, rows, .inventoryReleased _, db, db' =>
    Tx.Runs db (StockRepository.releaseLinesWithinTransaction (replay .inventory rows).lines) () db'
  | _, _, _, db, db' => db' = db

/-! ## Actions -/

/-- The message that the relay makes of an outbox row. -/
def relayedMessage (oid : Uuid) (row : OutboxRow) : Message :=
  .event { id := oid, type := row.eventType, correlationId := row.correlationId
           aggregateId := row.aggregateId, payload := row.payload }

/-- What a task may publish. -/
def MayPublish (s : Shared) (seen : Db) (topic : Topic) (message : Message) (key : String) :
    Task → Prop
  | .createOrder customerId items correlationId => topic = .sagaCommands ∧ ∃ c,
    message = .command c ∧ c.type = .createOrder ∧
      c.payload = { orderId := some key, customerId := some customerId, items := some items } ∧
      Event.acted (.createOrder customerId items correlationId) .randomUUID key ∈ s.trace
  | .event r => topic = .sagaCommands ∧ ∃ c orderId decision, message = .command c ∧
    decisionOf r.value = some (orderId, decision) ∧
      (decision (Store.row seen (.sagaInstance orderId))).Publishes r.value.correlationId c
  | .relay svc oid => ∃ row : OutboxRow, Store.row s.db (.outbox svc oid) = some row ∧
    topic = row.topic ∧ message = relayedMessage oid row
  | .command _ _ => False

section MayPublish

variable {s : Shared} {seen : Db} {t : Task} {topic : Topic} {key : String}

/-- Commands are published by requests and by the orchestrator. -/
theorem MayPublish.of_command {c : CommandEnvelope}
    (h : MayPublish s seen topic (.command c) key t) : topic = .sagaCommands ∧
    ((∃ customerId items correlationId, t = .createOrder customerId items correlationId ∧
      c.type = .createOrder ∧
      c.payload = { orderId := some key, customerId := some customerId, items := some items } ∧
      Event.acted t .randomUUID key ∈ s.trace) ∨
    ∃ r orderId decision, t = .event r ∧ decisionOf r.value = some (orderId, decision) ∧
      (decision (Store.row seen (.sagaInstance orderId))).Publishes r.value.correlationId c) := by
  cases t with
  | createOrder customerId items correlationId =>
    obtain ⟨htopic, c', heq, htype, hpayload, hdrawn⟩ := h
    obtain rfl := Message.command.inj heq
    exact ⟨htopic, .inl ⟨_, _, _, rfl, htype, hpayload, hdrawn⟩⟩
  | event r =>
    obtain ⟨htopic, c', orderId, decision, heq, hdec, hpublishes⟩ := h
    obtain rfl := Message.command.inj heq
    exact ⟨htopic, .inr ⟨r, orderId, decision, rfl, hdec, hpublishes⟩⟩
  | relay svc oid =>
    obtain ⟨row, -, -, heq⟩ := h
    nomatch heq
  | command svc r => exact h.elim

/-- Events are published by relays, from outbox rows. -/
theorem MayPublish.of_event {e : EventEnvelope} (h : MayPublish s seen topic (.event e) key t) :
    ∃ svc oid row, t = .relay svc oid ∧ Store.row s.db (.outbox svc oid) = some row ∧
      relayedMessage oid row = .event e := by
  cases t with
  | createOrder customerId items correlationId =>
    obtain ⟨-, c, heq, -⟩ := h
    nomatch heq
  | event r =>
    obtain ⟨-, c, orderId, decision, heq, -⟩ := h
    nomatch heq
  | relay svc oid =>
    obtain ⟨row, hrow, -, heq⟩ := h
    exact ⟨svc, oid, row, rfl, hrow, heq.symm⟩
  | command svc r => exact h.elim

end MayPublish

/-- What a task may do outside the database. -/
def Allowed (s : Shared) (seen : Db) (t : Task) : Act → Prop
  | .randomUUID | .randomUUIDs | .now => True
  | .publish topic message key => MayPublish s seen topic message key t
  | .authorize params => ∃ r command, t = .command .payment r ∧
    IsAuthorizePayment r.value command ∧ params = AuthorizePaymentHandler.params command
  | .refund _ _ _ => ∃ r, t = .command .payment r ∧ r.value.type = .refundPayment
  | .commitOffsets topic partition offset =>
    -- an AuthorizePayment is acknowledged once its order has a payment
    ∀ r, t = .command .payment r →
      (topic = r.topic ∧ partition = r.partition ∧ offset = r.offset + 1) ∧
      ∀ command, IsAuthorizePayment r.value command →
        (Store.row s.db (.paymentOfOrder command.orderId)).isSome

/-- A step of the task `t`, which last read `seen`. -/
inductive ServiceStep (t : Task) (seen : Db) (s : Shared) : Shared → Prop
  | acted (a : Act) (res : Act.Reply a) : Allowed s seen t a → ServiceStep t seen s (s.acted t a res)
  | appended {svc : Service} {id : String} {rows : List (EventStoreRow svc)} {r : EventStoreRow svc}
      {oid : Uuid} {db : Db} (w : Db) : Appends s t svc id rows r →
      StockEffect svc rows r.event s.db db → Saved svc id rows r oid db (w ++ s.db) →
      Persisted svc id rows r oid db (w ++ s.db) →
      ServiceStep t seen s (s.commit t w)
  | sagaSaved {r : Record EventEnvelope} {orderId : Uuid}
      {decision : Option SagaInstanceRow → Decision} (row : SagaInstanceRow) : t = .event r →
      decisionOf r.value = some (orderId, decision) →
      (decision (Store.row seen (.sagaInstance orderId))).Writes r.value.correlationId row →
      ServiceStep t seen s (s.commit t [⟨.sagaInstance orderId, row⟩])

/-! ## What others rely on -/

/-- What stays, whatever the other tasks do. -/
structure Grows (s s' : Shared) : Prop where
  trace : s.trace <:+ s'.trace
  stream : ∀ {svc id rows}, HasStream svc s.db id rows →
    ∃ more, HasStream svc s'.db id (rows ++ more)
  outbox : ∀ {svc oid} {row : OutboxRow}, Store.row s.db (.outbox svc oid) = some row →
    Store.row s'.db (.outbox svc oid) = some row
  index : ∀ {o : Uuid} {p : Uuid}, Store.row s.db (.paymentOfOrder o) = some p →
    Store.row s'.db (.paymentOfOrder o) = some p

theorem Grows.refl (s : Shared) : Grows s s where
  trace := List.suffix_refl _
  stream := fun h => ⟨[], by rwa [List.append_nil]⟩
  outbox := id
  index := id

theorem Grows.trans {s₁ s₂ s₃ : Shared} (h : Grows s₁ s₂) (h' : Grows s₂ s₃) : Grows s₁ s₃ where
  trace := h.trace.trans h'.trace
  stream := by
    intro svc id rows hrows
    obtain ⟨more, hmore⟩ := h.stream hrows
    obtain ⟨more', hmore'⟩ := h'.stream hmore
    exact ⟨more ++ more', by rwa [← List.append_assoc]⟩
  outbox := fun hrow => h'.outbox (h.outbox hrow)
  index := fun hp => h'.index (h.index hp)

theorem grows_acted (s : Shared) (t : Task) (a : Act) (res : Act.Reply a) :
    Grows s (s.acted t a res) where
  trace := List.suffix_cons _ _
  stream := (Grows.refl s).stream
  outbox := id
  index := id

/-- A commit that leaves the rows of the event stores alone. -/
theorem grows_beside {s : Shared} (t : Task) (w : Db)
    (hframe : ∀ k : Key, ¬ k.Beside → Store.row (w ++ s.db) k = Store.row s.db k) :
    Grows s (s.commit t w) where
  trace := List.suffix_cons _ _
  stream := by
    intro svc id rows hrows
    refine ⟨[], ?_⟩
    rw [List.append_nil]
    exact ⟨(hframe (.eventStore svc id 0) not_false).trans hrows.1,
      fun k => (hframe (.eventStore svc id (k + 1)) not_false).trans (hrows.2 k)⟩
  outbox := fun {svc oid _} hrow => (hframe (.outbox svc oid) not_false).trans hrow
  index := fun {o _} hp => (hframe (.paymentOfOrder o) not_false).trans hp

section StockEffect

open StockRepository

/-- Only stock levels differ. -/
def OnlyStock (db db' : Db) : Prop :=
  ∀ k : Key, (∀ sku, k ≠ .stockLevel sku) → Store.row db' k = Store.row db k

theorem OnlyStock.trans {db₁ db₂ db₃ : Db} (h : OnlyStock db₁ db₂) (h' : OnlyStock db₂ db₃) :
    OnlyStock db₁ db₃ :=
  fun k hk => (h' k hk).trans (h k hk)

theorem runs_updateReserved {db db' : Db} {sku : String} {f : ℤ → Num} {u : Unit} :
    Tx.Runs db (updateReserved sku f) u db' ↔
      Store.row db (.stockLevel sku) = none ∧ db' = db ∨
      ∃ row : StockLevelRow, Store.row db (.stockLevel sku) = some row ∧
        Int4 (roundNumeric (f row.qtyReserved)) ∧
        db' = ⟨.stockLevel sku, { row with qtyReserved := roundNumeric (f row.qtyReserved) }⟩ :: db := by
  unfold updateReserved
  rw [Tx.runs_lock]
  generalize (Store.row db (.stockLevel sku) : Option StockLevelRow) = found
  cases found with
  | none => exact Tx.runs_pure.trans (by simp)
  | some row =>
    simp only
    split
    · rename_i hint
      rw [Tx.runs_put, show (pure () : DbTx Unit) = Pure.pure () from rfl, Tx.runs_pure]
      simp [hint]
    · rename_i hint
      constructor
      · intro h
        exact absurd h Tx.runs_throw
      · rintro (⟨h, -⟩ | ⟨row', hrow', hint', -⟩)
        · cases h
        · cases hrow'
          exact absurd hint' hint

theorem onlyStock_updateReserved {db db' : Db} {sku : String} {f : ℤ → Num} {u : Unit}
    (h : Tx.Runs db (updateReserved sku f) u db') : OnlyStock db db' := by
  rcases runs_updateReserved.mp h with ⟨-, rfl⟩ | ⟨row, -, -, rfl⟩
  · exact fun _ _ => rfl
  · exact fun k hk => Store.row_cons_ne _ _ (hk sku)

/-- A check reads and writes nothing. -/
theorem runs_checkLine {db db' : Db} {line : ReservationLine} {u : Unit} :
    Tx.Runs db (checkLine line) u db' ↔ db' = db ∧
      ∃ row : StockLevelRow, Store.row db (.stockLevel line.sku) = some row ∧
        line.qty ≤ (row.qtyAvailable - row.qtyReserved : ℤ) := by
  unfold checkLine
  rw [Tx.runs_lock]
  generalize (Store.row db (.stockLevel line.sku) : Option StockLevelRow) = found
  cases found with
  | none =>
    constructor
    · intro h
      exact absurd h Tx.runs_throw
    · rintro ⟨-, row, hrow, -⟩
      cases hrow
  | some row =>
    simp only
    split
    · rename_i hlt
      constructor
      · intro h
        exact absurd h Tx.runs_throw
      · rintro ⟨-, row', hrow', hle⟩
        cases hrow'
        exact absurd hlt (not_lt.mpr hle)
    · rename_i hlt
      refine Tx.runs_pure.trans ?_
      constructor
      · rintro ⟨-, hdb⟩
        exact ⟨hdb, row, rfl, not_lt.mp hlt⟩
      · rintro ⟨hdb, -⟩
        exact ⟨rfl, hdb⟩

theorem runs_checkLines {db db' : Db} {lines : List ReservationLine} {u : Unit} :
    Tx.Runs db (checkLines lines) u db' ↔ db' = db ∧ ∀ line ∈ lines,
      ∃ row : StockLevelRow, Store.row db (.stockLevel line.sku) = some row ∧
        line.qty ≤ (row.qtyAvailable - row.qtyReserved : ℤ) := by
  induction lines generalizing db with
  | nil => exact Tx.runs_pure.trans (by simp)
  | cons line lines ih =>
    unfold checkLines
    simp only [Tx.runs_bind, runs_checkLine, ih, List.forall_mem_cons]
    constructor
    · rintro ⟨-, db₁, ⟨rfl, hline⟩, rfl, hlines⟩
      exact ⟨rfl, hline, hlines⟩
    · rintro ⟨rfl, hline, hlines⟩
      exact ⟨(), db', ⟨rfl, hline⟩, rfl, hlines⟩

theorem onlyStock_incrementLines {db db' : Db} {lines : List ReservationLine} {u : Unit}
    (h : Tx.Runs db (incrementLines lines) u db') : OnlyStock db db' := by
  induction lines generalizing db with
  | nil =>
    obtain ⟨-, rfl⟩ := Tx.runs_pure.mp h
    exact fun _ _ => rfl
  | cons line lines ih =>
    obtain ⟨_, db₁, hline, hlines⟩ := Tx.runs_bind.mp h
    exact (onlyStock_updateReserved hline).trans (ih hlines)

theorem onlyStock_releaseLines {db db' : Db} {lines : List ReservationLine} {u : Unit}
    (h : Tx.Runs db (releaseLinesWithinTransaction lines) u db') : OnlyStock db db' := by
  induction lines generalizing db with
  | nil =>
    obtain ⟨-, rfl⟩ := Tx.runs_pure.mp h
    exact fun _ _ => rfl
  | cons line lines ih =>
    obtain ⟨_, db₁, hline, hlines⟩ := Tx.runs_bind.mp h
    exact (onlyStock_updateReserved hline).trans (ih hlines)

theorem runs_reserveLines {db db' : Db} {lines : List ReservationLine} {u : Unit} :
    Tx.Runs db (reserveLinesWithinTransaction lines) u db' ↔
      (∀ line ∈ lines, ∃ row : StockLevelRow,
        Store.row db (.stockLevel line.sku) = some row ∧
          line.qty ≤ (row.qtyAvailable - row.qtyReserved : ℤ)) ∧
      Tx.Runs db (incrementLines lines) u db' := by
  unfold reserveLinesWithinTransaction
  simp only [Tx.runs_bind, runs_checkLines]
  constructor
  · rintro ⟨-, db₁, ⟨rfl, hlines⟩, hinc⟩
    exact ⟨hlines, hinc⟩
  · rintro ⟨hlines, hinc⟩
    exact ⟨(), db, ⟨rfl, hlines⟩, hinc⟩

/-- An event of another service, or a failed reservation, leaves the stock alone. -/
theorem StockEffect.onlyStock {svc : Service} {rows : List (EventStoreRow svc)} {event : svc.Event}
    {db db' : Db} (h : StockEffect svc rows event db db') : OnlyStock db db' := by
  unfold StockEffect at h
  split at h
  · exact onlyStock_incrementLines (runs_reserveLines.mp h).2
  · exact onlyStock_releaseLines h
  · subst h
    exact fun _ _ => rfl

theorem OnlyStock.beside {db db' : Db} (h : OnlyStock db db') {k : Key} (hk : ¬ k.Beside) :
    Store.row db' k = Store.row db k := by
  refine h k fun sku heq => hk ?_
  rw [heq]
  trivial

/-- Streams do not depend on the stock. -/
theorem OnlyStock.stream {db db' : Db} (h : OnlyStock db db') {svc : Service} {id : String}
    {rows : List (EventStoreRow svc)} : HasStream svc db' id rows ↔ HasStream svc db id rows := by
  have hrow : ∀ k, Store.row db' (.eventStore svc id k) = Store.row db (.eventStore svc id k) :=
    fun _ => h.beside not_false
  unfold HasStream
  simp only [hrow]

end StockEffect

/-! ## The protocol -/

section Step

variable {t : Task} {seen : Db} {s s' : Shared}

/-- What an append does to the streams and to what others rely on. -/
structure Appended (s s' : Shared) (svc : Service) (id : String) (rows : List (EventStoreRow svc))
    (r : EventStoreRow svc) : Prop where
  before : HasStream svc s.db id rows
  after : HasStream svc s'.db id (rows ++ [r])
  others : ∀ {svc' id' rows'}, ¬ (svc' = svc ∧ id' = id) →
    (HasStream svc' s'.db id' rows' ↔ HasStream svc' s.db id' rows')

/-- A stream after the append is the new one, or one that was there. -/
theorem Appended.cases {svc : Service} {id id' : String} {rows rows' : List (EventStoreRow svc)}
    {r : EventStoreRow svc} (h : Appended s s' svc id rows r) (h' : HasStream svc s'.db id' rows') :
    id' = id ∧ rows' = rows ++ [r] ∨ HasStream svc s.db id' rows' := by
  by_cases heq : id' = id
  · subst heq
    exact .inl ⟨rfl, h'.unique h.after⟩
  · exact .inr ((h.others fun hsame => heq hsame.2).mp h')

theorem appended_of_saved {svc : Service} {id : String} {rows : List (EventStoreRow svc)}
    {r : EventStoreRow svc} {oid : Uuid} {db w : Db} (hstock : OnlyStock s.db db)
    (h : Saved svc id rows r oid db (w ++ s.db)) : Appended s (s.commit t w) svc id rows r where
  before := hstock.stream.mp h.stream
  after := h.stream'
  others := fun hne => (h.stream_ne hne).trans hstock.stream

theorem grows_of_saved (hdb : Consistent s.db) {svc : Service} {id : String}
    {rows : List (EventStoreRow svc)} {r : EventStoreRow svc} {oid : Uuid} {db w : Db}
    (hstock : OnlyStock s.db db) (h : Saved svc id rows r oid db (w ++ s.db)) :
    Grows s (s.commit t w) where
  trace := List.suffix_cons _ _
  stream := fun hrows => h.extends (hstock.stream.mpr hrows)
  outbox := fun {svc' oid' _} hrow => h.outbox_some
    ((hstock.beside (k := .outbox svc' oid') not_false).trans hrow)
  index := by
    intro o p hp
    have hconsistent : Consistent db := hdb.beside fun _ hk => hstock.beside hk
    have hp' : Store.row db (.paymentOfOrder o) = some p :=
      (hstock.beside (k := .paymentOfOrder o) not_false).trans hp
    by_cases hsvc : svc = .payment
    · obtain ⟨row, -, hself, hother, hcase⟩ := h.index hsvc
      by_cases ho : o = row.orderId
      · subst ho
        rcases hcase with ⟨-, hnone⟩ | hsome
        · rw [hnone] at hp'
          cases hp'
        · rw [hsome] at hp'
          cases hp'
          exact hself
      · exact (hother o ho).trans hp'
    · exact ((h.index_ne hsvc).1 o).trans hp'

theorem ServiceStep.consistent (h : ServiceStep t seen s s') (hdb : Consistent s.db) :
    Consistent s'.db := by
  cases h with
  | acted a res _ => exact hdb
  | appended w _ hstock hsaved _ =>
    exact hsaved.consistent (hdb.beside fun _ hk => hstock.onlyStock.beside hk)
  | sagaSaved row _ _ _ =>
    refine hdb.beside fun k hk => Store.row_cons_ne s.db _ fun heq => hk ?_
    rw [heq]
    trivial

theorem ServiceStep.grows (h : ServiceStep t seen s s') (hdb : Consistent s.db) : Grows s s' := by
  cases h with
  | acted a res _ => exact grows_acted s t a res
  | appended w _ hstock hsaved _ => exact grows_of_saved hdb hstock.onlyStock hsaved
  | sagaSaved row _ _ _ =>
    refine grows_beside t _ fun k hk => Store.row_cons_ne s.db _ fun heq => hk ?_
    rw [heq]
    trivial

/-- What a step does to the streams of a service: nothing, or one event more. -/
theorem ServiceStep.stream_cases (h : ServiceStep t seen s s') (svc : Service) :
    (∀ id rows, HasStream svc s'.db id rows ↔ HasStream svc s.db id rows) ∨
    ∃ id rows r, Appends s t svc id rows r ∧ Appended s s' svc id rows r := by
  cases h with
  | acted a res _ => exact .inl fun _ _ => Iff.rfl
  | @appended svc' id rows r oid db w happ hstock hsaved _ =>
    have happended := appended_of_saved (t := t) hstock.onlyStock hsaved
    by_cases hsvc : svc' = svc
    · subst hsvc
      exact .inr ⟨id, rows, r, happ, happended⟩
    · exact .inl fun _ _ => happended.others fun heq => hsvc heq.1.symm
  | @sagaSaved r orderId decision row _ _ _ =>
    refine .inl fun id rows => ?_
    have hrow : ∀ k, Store.row (s.commit t [⟨.sagaInstance orderId, row⟩]).db (.eventStore svc id k) =
        Store.row s.db (.eventStore svc id k) :=
      fun k => @Store.row_cons_ne _ _ _ s.db _ (.sagaInstance orderId) row (by simp)
    unfold HasStream
    simp only [hrow]

/-- A stream after a step is one from before it, perhaps with one event more. -/
theorem ServiceStep.stream_before (h : ServiceStep t seen s s') {svc : Service} {id : String}
    {rows : List (EventStoreRow svc)} (hrows : HasStream svc s'.db id rows) :
    HasStream svc s.db id rows ∨ ∃ rows' r, HasStream svc s.db id rows' ∧ rows = rows' ++ [r] ∧
      Appends s t svc id rows' r := by
  rcases h.stream_cases svc with hsame | ⟨id', rows', r, happ, happended⟩
  · exact .inl ((hsame id rows).mp hrows)
  · rcases happended.cases hrows with ⟨rfl, hrows'⟩ | hold
    · exact .inr ⟨rows', r, happended.before, hrows', happ⟩
    · exact .inl hold

end Step

/-- Every task takes only such steps, and keeps the database consistent. -/
def serviceProtocol : Protocol Row Err Act.Reply Task where
  inv := fun s => Consistent s.db
  rely := Grows
  guar := ServiceStep
  rely_refl := Grows.refl
  rely_trans := fun h h' => h.trans h'
  guar_inv := fun hdb h => h.consistent hdb
  guar_rely := fun hdb h => h.grows hdb

end Saganova
