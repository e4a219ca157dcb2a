import Saganova.CheckoutFacts
import Saganova.StockLedger

/-!
# A checkout is safe from end to end

Any number of replicas of every service, interleaved statement by statement,
every message delivered any number of times and in any order.  Nobody is
charged before the stock is reserved; a confirmed order has its payment and its
reservation, for exactly its items; a cancelled one was never paid; and no order
is told both (`checkoutSafe`).

One invariant ties every message to the store entries that justify it
(`CheckoutInv`).  A saga row that was read long ago only has to tell the amount
right (`ContextOk`); which step the saga is at does not matter.
-/

namespace Saganova

open Concurrency Decision

/-! ## What the orchestrator makes of an event -/

section Orchestrator

variable {s : Shared} {o : Uuid} {row : Option SagaInstanceRow}

/-- The commands and the contexts that a decision leads to. -/
structure DecisionOk (s : Shared) (o : Uuid) (decision : Decision) : Prop where
  publishes : ∀ correlationId c, decision.Publishes correlationId c → Commanded s c.type c.payload
  writes : ∀ correlationId row, decision.Writes correlationId row → ContextOk s o row.context

theorem decisionOk_ignore : DecisionOk s o .ignore where
  publishes _ _ h := h.elim
  writes _ _ h := h.elim

theorem decisionOk_fail (e : Err) : DecisionOk s o (.fail e) where
  publishes _ _ h := h.elim
  writes _ _ h := h.elim

theorem decisionOk_resave {r : SagaInstanceRow} (hr : ContextOk s o r.context) :
    DecisionOk s o (.resave r) where
  publishes _ _ h := h.elim
  writes _ _ h := by
    rw [h]
    exact hr

theorem decisionOk_start {customerId : Uuid} {items : List OrderLineItem}
    (hplaced : Placed s o customerId items) : DecisionOk s o (decideStart row
      { orderId := some o, customerId := some customerId, lines := some (reservationLines items)
        amountCents := some (OrderAggregate.totalCents items) }) := by
  cases row with
  | some r => exact decisionOk_ignore
  | none =>
    constructor
    · rintro correlationId c ⟨-, htype, hpayload⟩
      rw [htype, hpayload]
      exact .reserveStock hplaced
    · rintro correlationId row ⟨time, rfl⟩
      exact ⟨customerId, items, hplaced, rfl⟩

/-- A decision on an event, given what each kind of event makes true. -/
theorem decisionOk_event {eventType : EventType} {payload : Payload}
    (hrow : ∀ r, row = some r → ContextOk s o r.context)
    (hcontext : ∀ context, ContextOk s o context → ContextOk s o (context.spread payload))
    (horder : payload.orderId = some o)
    (hreserved : eventType = .inventoryReserved → ∃ lines, Reserved s o lines)
    (hauthorized : eventType = .paymentAuthorized → ∃ customerId items p,
      Placed s o customerId items ∧ Authorized s o p (OrderAggregate.totalCents items) ∧
        payload.paymentId = some p)
    (hfailed : eventType = .inventoryReservationFailed ∨ eventType = .paymentDeclined →
      ReservationFailed s o ∨ Declined s o) :
    DecisionOk s o (decideEvent row eventType payload) := by
  obtain hignore | ⟨e, hfail⟩ | ⟨r, rfl, hcases⟩ := decideEvent_cases row eventType payload
  · rw [hignore]
    exact decisionOk_ignore
  · rw [hfail]
    exact decisionOk_fail e
  have hr := hrow r rfl
  have hspread := hcontext _ hr
  have hid : (r.context.spread payload).orderId = some o := Payload.spread_orderId_of_some horder
  obtain hresave | ⟨htype, hadvance⟩ | ⟨htype, hcomplete⟩ | ⟨htype, step, hcancel⟩ := hcases
  · rw [hresave]
    exact decisionOk_resave hr
  · rw [hadvance]
    constructor
    · rintro correlationId c ⟨-, htype', hpayload⟩
      obtain ⟨lines, hlines⟩ := hreserved htype
      obtain ⟨customerId, items, hplaced, hamount⟩ := hspread
      rw [htype', hpayload, hid, hamount]
      exact .authorizePayment hplaced hlines
    · rintro correlationId row ⟨time, rfl⟩
      exact hspread
  · rw [hcomplete]
    constructor
    · rintro correlationId c ⟨-, htype', hpayload⟩
      obtain ⟨customerId, items, p, hplaced, hpaid, hp⟩ := hauthorized htype
      have hpayment : (r.context.spread payload).paymentId = some p := by
        show (payload.paymentId <|> r.context.paymentId) = _
        rw [hp]
        rfl
      rw [htype', hpayload, hid, hpayment]
      exact .confirmOrder hplaced hpaid
    · rintro correlationId row ⟨time, rfl⟩
      exact hspread
  · rw [hcancel]
    constructor
    · rintro correlationId c ⟨-, htype', hpayload⟩
      rw [htype', hpayload, hid]
      exact .cancelOrder (hfailed htype)
    · rintro correlationId row ⟨time, rfl⟩
      exact hspread

/-- An event about an order: every kind but ORDER_CREATED goes to `onEvent`. -/
theorem decisionOf_onEvent {e : EventEnvelope} {decision : Option SagaInstanceRow → Decision}
    (htype : e.type ≠ .orderCreated) (hdec : decisionOf e = some (o, decision)) :
    e.payload.orderId = some o ∧ ∀ row, decision row = decideEvent row e.type e.payload := by
  unfold decisionOf at hdec
  rw [if_neg htype] at hdec
  cases hfilter : e.payload.orderId.filter (· ≠ "") with
  | none =>
    rw [hfilter] at hdec
    nomatch hdec
  | some o' =>
    rw [hfilter] at hdec
    obtain ⟨rfl, rfl⟩ := Prod.mk.inj (Option.some.inj hdec)
    exact ⟨(Option.filter_eq_some_iff.mp hfilter).1, fun _ => rfl⟩

/-- **What the orchestrator makes of an event that rests on its facts.** -/
theorem Announced.decisionOk {e : EventEnvelope} {decision : Option SagaInstanceRow → Decision}
    (he : Announced s e.type e.payload) (hdec : decisionOf e = some (o, decision))
    (hrow : ∀ r, row = some r → ContextOk s o r.context) : DecisionOk s o (decision row) := by
  by_cases hcreated : e.type = .orderCreated
  · obtain ⟨id, type, correlationId, aggregateId, payload⟩ := e
    obtain rfl : type = .orderCreated := hcreated
    cases he with
    | orderCreated hplaced =>
      obtain ⟨rfl, rfl⟩ := Prod.mk.inj (Option.some.inj hdec)
      exact decisionOk_start hplaced
  · obtain ⟨horder, hdecision⟩ := decisionOf_onEvent hcreated hdec
    rw [hdecision]
    obtain ⟨id, type, correlationId, aggregateId, payload⟩ := e
    cases he with
    | orderCreated _ => exact absurd rfl hcreated
    | orderConfirmed =>
      exact decisionOk_event hrow (fun _ h => h.spread rfl) horder nofun nofun nofun
    | orderCancelled =>
      exact decisionOk_event hrow (fun _ h => h.spread rfl) horder nofun nofun nofun
    | inventoryReserved _ hreserved =>
      obtain rfl := Option.some.inj horder
      exact decisionOk_event hrow (fun _ h => h.spread rfl) horder (fun _ => ⟨_, hreserved⟩) nofun
        nofun
    | inventoryReservationFailed hfailed =>
      obtain rfl := Option.some.inj horder
      exact decisionOk_event hrow (fun _ h => h.spread rfl) horder nofun nofun fun _ => .inl hfailed
    | paymentAuthorized hplaced hauthorized =>
      obtain rfl := Option.some.inj horder
      exact decisionOk_event hrow (fun _ _ => ⟨_, _, hplaced, rfl⟩) horder nofun
        (fun _ => ⟨_, _, _, hplaced, hauthorized, rfl⟩) nofun
    | paymentDeclined hdeclined =>
      obtain rfl := Option.some.inj horder
      exact decisionOk_event hrow (fun _ h => h.spread rfl) horder nofun nofun fun _ => .inr hdeclined

end Orchestrator

/-! ## What the services make of a command -/

section Commands

variable {s : Shared} {payload : Payload} {o : Uuid}

theorem Commanded.placed {customerId : Uuid} {items : List OrderLineItem}
    (h : Commanded s .createOrder payload) (ho : payload.orderId = some o)
    (hcustomer : payload.customerId = some customerId) (hitems : payload.items = some items) :
    Placed s o customerId items := by
  cases h with
  | createOrder hplaced =>
    obtain rfl := Option.some.inj ho
    obtain rfl := Option.some.inj hcustomer
    obtain rfl := Option.some.inj hitems
    exact hplaced

theorem Commanded.lines {lines : List ReservationLine} (h : Commanded s .reserveStock payload)
    (ho : payload.orderId = some o) (hlines : payload.lines = some lines) :
    ∃ customerId items, Placed s o customerId items ∧ lines = reservationLines items := by
  cases h with
  | reserveStock hplaced =>
    obtain rfl := Option.some.inj ho
    exact ⟨_, _, hplaced, (Option.some.inj hlines).symm⟩

theorem Commanded.reserved (h : Commanded s .authorizePayment payload)
    (ho : payload.orderId = some o) : ∃ lines, Reserved s o lines := by
  cases h with
  | authorizePayment _ hreserved =>
    obtain rfl := Option.some.inj ho
    exact ⟨_, hreserved⟩

theorem Commanded.amount {amountCents : Num} (h : Commanded s .authorizePayment payload)
    (ho : payload.orderId = some o) (hamount : payload.amountCents = some amountCents) :
    ∃ customerId items, Placed s o customerId items ∧
      amountCents = OrderAggregate.totalCents items := by
  cases h with
  | authorizePayment hplaced _ =>
    obtain rfl := Option.some.inj ho
    exact ⟨_, _, hplaced, (Option.some.inj hamount).symm⟩

theorem Commanded.authorized {p : Uuid} (h : Commanded s .confirmOrder payload)
    (ho : payload.orderId = some o) (hp : payload.paymentId = some p) :
    ∃ customerId items, Placed s o customerId items ∧
      Authorized s o p (OrderAggregate.totalCents items) := by
  cases h with
  | confirmOrder hplaced hauthorized =>
    obtain rfl := Option.some.inj ho
    obtain rfl := Option.some.inj hp
    exact ⟨_, _, hplaced, hauthorized⟩

theorem Commanded.failed (h : Commanded s .cancelOrder payload) (ho : payload.orderId = some o) :
    ReservationFailed s o ∨ Declined s o := by
  cases h with
  | cancelOrder hfailed =>
    obtain rfl := Option.some.inj ho
    exact hfailed

/-- An order that is not finished has only been created. -/
theorem Recorded.created_of_open {rows : List (EventStoreRow .order)} (h : Recorded s .order o rows)
    (hne : rows ≠ [])
    (hopen : ¬ ((replay .order rows).status = .cancelled ∨ (replay .order rows).status = .confirmed)) :
    ∃ customerId items r, rows = [r] ∧ Placed s o customerId items ∧ r.event = .orderCreated
      { orderId := o, customerId, items, totalCents := OrderAggregate.totalCents items } := by
  cases h with
  | nil => exact absurd rfl hne
  | created hplaced hevent => exact ⟨_, _, _, rfl, hplaced, hevent⟩
  | confirmed _ _ _ _ hevent' =>
    refine absurd (.inr ?_) hopen
    rw [replay_two, hevent']
    rfl
  | cancelled _ _ _ hevent' =>
    refine absurd (.inl ?_) hopen
    rw [replay_two, hevent']
    rfl

/-- **The stream after an append is one that rests on its facts.** -/
theorem Appends.recorded {t : Task} {svc : Service} {id : String} {rows : List (EventStoreRow svc)}
    {r : EventStoreRow svc} (h : Appends s t svc id rows r) (hrows : Recorded s svc id rows)
    (hcommands : ∀ svc (r : Record CommandEnvelope), t = .command svc r →
      Commanded s r.value.type r.value.payload ∧
        ∀ o, r.value.payload.orderId = some o → Asked s r.value.type o) :
    Recorded s svc id (rows ++ [r]) := by
  cases h with
  | created htype ho hcustomer hitems =>
    obtain ⟨hc, -⟩ := hcommands _ _ rfl
    rw [htype] at hc
    exact .created (hc.placed ho hcustomer hitems) rfl
  | confirmed htype ho hp hne hstatus =>
    obtain ⟨hc, -⟩ := hcommands _ _ rfl
    rw [htype] at hc
    obtain ⟨_, _, r₀, rfl, hplaced, hevent⟩ := hrows.created_of_open hne (by
      rw [hstatus]
      exact nofun)
    obtain ⟨_, _, hplaced', hauthorized⟩ := hc.authorized ho hp
    exact .confirmed hplaced hevent hplaced' hauthorized rfl
  | cancelled htype ho hreason hne hopen =>
    obtain ⟨hc, -⟩ := hcommands _ _ rfl
    rw [htype] at hc
    obtain ⟨_, _, r₀, rfl, hplaced, hevent⟩ := hrows.created_of_open hne hopen
    exact .cancelled hplaced hevent (hc.failed ho) rfl
  | @charged r command p reply result time hcommand hanswer hcalled =>
    obtain ⟨hc, hasked⟩ := hcommands _ _ rfl
    rw [hcommand.type] at hc hasked
    have hasked := hasked _ hcommand.orderId
    obtain ⟨lines, hreserved⟩ := hc.reserved hcommand.orderId
    obtain ⟨_, items, hplaced, hamount⟩ := hc.amount hcommand.orderId hcommand.amountCents
    by_cases hsuccess : result.success = true
    · have hevent : AuthorizePaymentHandler.event command id result = .paymentAuthorized
          { paymentId := id, orderId := command.orderId
            amountCents := OrderAggregate.totalCents items
            pspReference := result.pspReference } := by
        unfold AuthorizePaymentHandler.event
        rw [if_pos hsuccess, hamount]
      exact .authorized hplaced hasked hreserved hevent
    · have hevent : AuthorizePaymentHandler.event command id result = .paymentDeclined
          { paymentId := id, orderId := command.orderId
            declineCode := result.declineCode.getD "unknown"
            reason := result.reason.getD "Payment declined" } := by
        unfold AuthorizePaymentHandler.event
        rw [if_neg hsuccess]
      exact .declined hasked hreserved hevent
  | refunded htype _ _ _ =>
    obtain ⟨hc, -⟩ := hcommands _ _ rfl
    rw [htype] at hc
    nomatch hc
  | reserved htype ho hlines =>
    obtain ⟨hc, hasked⟩ := hcommands _ _ rfl
    rw [htype] at hc hasked
    obtain ⟨_, _, hplaced, rfl⟩ := hc.lines ho hlines
    exact .reserved hplaced (hasked _ ho) rfl
  | failed htype ho =>
    obtain ⟨hc, hasked⟩ := hcommands _ _ rfl
    rw [htype] at hasked
    exact .reservationFailed (hasked _ ho) rfl
  | released htype _ _ _ =>
    obtain ⟨hc, -⟩ := hcommands _ _ rfl
    rw [htype] at hc
    nomatch hc

end Commands

/-! ## The invariant -/

/-- Every message, stream, saga row and charge rests on its facts. -/
structure CheckoutInv (s : Shared) : Prop where
  commands : ∀ topic c, Published s topic (.command c) → Commanded s c.type c.payload
  events : ∀ topic e, Published s topic (.event e) → Announced s e.type e.payload
  streams : ∀ svc id rows, HasStream svc s.db id rows → Recorded s svc id rows
  sagas : ∀ o row, Store.row s.db (.sagaInstance o) = some row → ContextOk s o row.context
  charges : ∀ t params reply, Event.acted t (.authorize params) reply ∈ s.trace →
    ∃ lines, Reserved s params.orderId lines

/-- What is known of a running handler: its message was published, and the saga
rows it read were right. -/
structure JobOk (s : Shared) (t : Task) (seen : Db) : Prop where
  delivered : Delivered s t
  seen : ∀ o row, Store.row seen (.sagaInstance o) = some row → ContextOk s o row.context

theorem JobOk.grow {s s' : Shared} {t : Task} {seen : Db} (h : JobOk s t seen)
    (hgrow : Grows s s') : JobOk s' t seen where
  delivered := h.delivered.grow hgrow
  seen o row hrow := (h.seen o row hrow).grow hgrow

theorem CheckoutInv.start {s : Shared} (hdb : OnlyStocked s.db) (htrace : s.trace = []) :
    CheckoutInv s where
  commands topic c hpublished := absurd hpublished (not_published htrace topic _)
  events topic e hpublished := absurd hpublished (not_published htrace topic _)
  streams svc id rows hrows := by
    rw [hdb.fresh.stream_nil hrows]
    exact .nil
  sagas o row hrow := by
    rw [hdb (.sagaInstance o) nofun] at hrow
    nomatch hrow
  charges t params reply hmem := absurd hmem (not_acted htrace t _ reply)

section Step

variable {t : Task} {seen : Db} {s s' : Shared}

/-- **What a task publishes rests on its facts.** -/
theorem MayPublish.commanded {topic : Topic} {c : CommandEnvelope} {key : String}
    (h : MayPublish s seen topic (.command c) key t) (hI : CheckoutInv s) (hjob : JobOk s t seen)
    (hgrow : Grows s s') (hpublished : Published s' topic (.command c)) :
    Commanded s' c.type c.payload := by
  obtain ⟨rfl, hrequest | ⟨r, orderId, decision, rfl, hdec, hpublishes⟩⟩ := h.of_command
  · obtain ⟨customerId, items, correlationId, rfl, htype, hpayload, hdrawn⟩ := hrequest
    rw [htype, hpayload]
    exact .createOrder ⟨⟨_, hgrow.trace.subset hdrawn⟩, c, hpublished, htype, hpayload⟩
  · have hevent := hI.events _ _ hjob.delivered
    have hok := hevent.decisionOk hdec (hjob.seen orderId)
    exact (hok.publishes _ _ hpublishes).grow hgrow

theorem MayPublish.announced {topic : Topic} {e : EventEnvelope} {key : String}
    (h : MayPublish s seen topic (.event e) key t) (hI : CheckoutInv s) (hdb : Consistent s.db) :
    Announced s e.type e.payload := by
  obtain ⟨svc, oid, row, rfl, hrow, heq⟩ := h.of_event
  obtain rfl := Message.event.inj heq
  obtain ⟨rows, hrows, r, hr, hsame⟩ := hdb.outbox_event hrow
  rw [hsame]
  exact (hI.streams svc _ rows hrows).announced hrows hr

/-- Only the orchestrator writes saga rows, and what it decided on the row it read. -/
theorem ServiceStep.saga_cases (h : ServiceStep t seen s s') (o : Uuid) :
    Store.row s'.db (.sagaInstance o) = Store.row s.db (.sagaInstance o) ∨
    ∃ r decision row, t = .event r ∧ decisionOf r.value = some (o, decision) ∧
      (decision (Store.row seen (.sagaInstance o))).Writes r.value.correlationId row ∧
      Store.row s'.db (.sagaInstance o) = some row := by
  cases h with
  | acted a res _ => exact .inl rfl
  | @appended svc id rows r oid db w _ hstock hsaved _ =>
    refine .inl ?_
    have hframe : Store.row (w ++ s.db) (.sagaInstance o) = Store.row db (.sagaInstance o) :=
      hsaved.frame _ not_false
    exact hframe.trans (hstock.onlyStock _ nofun)
  | @sagaSaved r orderId decision row ht hdec hwrites =>
    by_cases ho : o = orderId
    · subst ho
      exact .inr ⟨r, decision, row, ht, hdec, hwrites, Store.row_cons_self s.db (.sagaInstance o) row⟩
    · exact .inl (@Store.row_cons_ne _ _ _ s.db _ (.sagaInstance orderId) row (by simpa using ho))

/-- **Every step keeps the invariant.** -/
theorem CheckoutInv.step (hI : CheckoutInv s) (hdb : Consistent s.db) (hjob : JobOk s t seen)
    (h : ServiceStep t seen s s') : CheckoutInv s' := by
  have hgrow := h.grows hdb
  constructor
  · rintro topic c ⟨task, key, res, hmem⟩
    obtain hold | ⟨rfl, hallowed, -⟩ := h.new_event hmem
    · exact (hI.commands topic c ⟨task, key, res, hold⟩).grow hgrow
    · exact MayPublish.commanded hallowed hI hjob hgrow ⟨_, key, res, hmem⟩
  · rintro topic e ⟨task, key, res, hmem⟩
    obtain hold | ⟨rfl, hallowed, -⟩ := h.new_event hmem
    · exact (hI.events topic e ⟨task, key, res, hold⟩).grow hgrow
    · exact (MayPublish.announced hallowed hI hdb).grow hgrow
  · intro svc id rows hrows
    obtain hold | ⟨rows', r, hrows', rfl, happ⟩ := h.stream_before hrows
    · exact (hI.streams svc id rows hold).grow hgrow
    · refine (happ.recorded (hI.streams svc id rows' hrows') ?_).grow hgrow
      rintro svc' r' rfl
      have hpublished : Published s r'.topic (.command r'.value) := hjob.delivered
      exact ⟨hI.commands _ _ hpublished, fun o ho => ⟨_, _, hpublished, rfl, ho⟩⟩
  · intro o row hrow
    obtain hsame | ⟨r, decision, row', rfl, hdec, hwrites, hrow'⟩ := h.saga_cases o
    · rw [hsame] at hrow
      exact (hI.sagas o row hrow).grow hgrow
    · obtain rfl := Option.some.inj (hrow.symm.trans hrow')
      have hevent := hI.events _ _ hjob.delivered
      have hok := hevent.decisionOk hdec (hjob.seen o)
      exact (hok.writes _ _ hwrites).grow hgrow
  · intro task params reply hmem
    obtain hold | ⟨rfl, hallowed, -⟩ := h.new_event hmem
    · exact (hI.charges task params reply hold).imp fun _ h => h.grow hgrow
    · obtain ⟨r, command, rfl, hcommand, rfl⟩ := hallowed
      have hc := hI.commands _ _ hjob.delivered
      rw [hcommand.type] at hc
      exact (hc.reserved hcommand.orderId).imp fun _ h => h.grow hgrow

end Step

/-! ## Every run -/

section Reach

variable {S : System} {G : Guard}

theorem checkoutInv_of_reach (hcode : S.code = code)
    (hspawn : ∀ s t, S.spawn s t → Delivered s.shared t)
    (hstart : ∀ s, S.start s → OnlyStocked s.db ∧ s.trace = []) {s : State} (h : Reach S G s) :
    CheckoutInv s.shared := by
  have hkeeps : S.Keeps serviceProtocol G :=
    keepsServiceProtocol hcode fun s hs => (hstart s hs).1.fresh.consistent
  refine Protocol.invariant_of_seen hkeeps (J := JobOk) (fun s t ht => ?_) (fun t seen s s' hgrow hjob =>
    hjob.grow hgrow) (fun t seen s hI hjob => ⟨hjob.delivered, hI.sagas⟩) (fun s hs => ?_)
    (fun t seen s s' hdb htook hI hstep => hI.step hdb htook.task hstep) h
  · refine ⟨hspawn s t ht, fun o row hrow => ?_⟩
    rw [Store.row_nil] at hrow
    nomatch hrow
  · exact .start (hstart s hs).1 (hstart s hs).2

/-- No two requests draw the same id. -/
def DrawnOnce (s : Shared) : Prop :=
  ∀ t t' (id : Uuid), t.IsRequest → t'.IsRequest → Event.acted t .randomUUID id ∈ s.trace →
    Event.acted t' .randomUUID id ∈ s.trace → t = t'

theorem drawnOnce_of_reach {s : State} (h : Reach checkoutSystem G s) : DrawnOnce s.shared := by
  refine Protocol.invariant_of_took checkoutSystem_keeps (T := fun _ _ => True)
    (fun _ _ _ => trivial) (fun _ _ _ _ _ => trivial) (fun s hs => ?_)
    (fun t seen s s' hdb htook hI hstep => ?_) h
  · intro t t' id _ _ hmem
    exact absurd hmem (not_acted hs.2 t _ _)
  · intro t₁ t₂ id ht₁ ht₂ h₁ h₂
    obtain hold₁ | ⟨rfl, -, hs'⟩ := hstep.new_event h₁
    · obtain hold₂ | ⟨rfl, -, hs'⟩ := hstep.new_event h₂
      · exact hI t₁ t₂ id ht₁ ht₂ hold₁ hold₂
      · exact absurd rfl (htook.reply _ _ hs' ht₂ t₁ id ht₁ hold₁)
    · obtain hold₂ | ⟨rfl, -, -⟩ := hstep.new_event h₂
      · exact absurd rfl (htook.reply _ _ hs' ht₁ t₂ id ht₂ hold₂)
      · rfl

end Reach

/-! ## What the facts exclude -/

section Exclude

variable {s : Shared} {o p customerId customerId' : Uuid} {items items' : List OrderLineItem}

/-- The order was placed once. -/
theorem Placed.unique (hdrawn : DrawnOnce s) (h : Placed s o customerId items)
    (h' : Placed s o customerId' items') : items = items' := by
  obtain ⟨⟨c, hmem⟩, -⟩ := h
  obtain ⟨⟨c', hmem'⟩, -⟩ := h'
  have htask := hdrawn (.createOrder customerId items c) (.createOrder customerId' items' c') o
    trivial trivial hmem hmem'
  injection htask

theorem Authorized.stream {amountCents : Num} (h : Authorized s o p amountCents)
    (hI : CheckoutInv s) : ∃ r lines pspReference, HasStream .payment s.db p [r] ∧
      r.event = .paymentAuthorized { paymentId := p, orderId := o, amountCents, pspReference } ∧
      Reserved s o lines := by
  obtain ⟨pspReference, r, more, hrows, hevent⟩ := h
  cases hI.streams _ _ _ hrows with
  | authorized _ _ hreserved hevent' =>
    obtain heq := PaymentEvent.paymentAuthorized.inj (hevent.symm.trans hevent')
    injection heq with _ ho _ _
    exact ⟨r, _, pspReference, hrows, hevent, ho ▸ hreserved⟩
  | declined _ _ hevent' => nomatch hevent.symm.trans hevent'

theorem Authorized.paymentOf {amountCents : Num} (h : Authorized s o p amountCents)
    (hI : CheckoutInv s) : PaymentOf s.db o p := by
  obtain ⟨r, _, _, hrows, hevent, -⟩ := h.stream hI
  refine ⟨[r], hrows, by simp, ?_⟩
  rw [replay_one, hevent]
  rfl

theorem Declined.paymentOf (h : Declined s o) (hI : CheckoutInv s) :
    ∃ p declineCode reason, PaymentOf s.db o p ∧ First .payment s p
      (.paymentDeclined { paymentId := p, orderId := o, declineCode, reason }) := by
  obtain ⟨p, declineCode, reason, hfirst⟩ := h
  refine ⟨p, declineCode, reason, ?_, hfirst⟩
  obtain ⟨r, more, hrows, hevent⟩ := hfirst
  cases hI.streams _ _ _ hrows with
  | authorized _ _ _ hevent' => nomatch hevent.symm.trans hevent'
  | declined _ _ _ =>
    refine ⟨[r], hrows, by simp, ?_⟩
    rw [replay_one, hevent]
    rfl

/-- A paid order neither failed to be reserved nor was declined. -/
theorem Authorized.not_failed {amountCents : Num} (h : Authorized s o p amountCents)
    (hI : CheckoutInv s) (hdb : Consistent s.db) : ¬ (ReservationFailed s o ∨ Declined s o) := by
  rintro (⟨sku, reason, hfirst⟩ | hdeclined)
  · obtain ⟨_, _, _, -, -, reservationId, hreserved⟩ := h.stream hI
    nomatch hreserved.unique hfirst
  · obtain ⟨p', declineCode, reason, hpayment, hfirst⟩ := hdeclined.paymentOf hI
    have hindex := (paymentOf_iff hdb).mp (h.paymentOf hI)
    have hindex' := (paymentOf_iff hdb).mp hpayment
    obtain rfl := Option.some.inj (hindex.symm.trans hindex')
    obtain ⟨pspReference, hfirst'⟩ := h
    nomatch hfirst'.unique hfirst

end Exclude

/-! ## The theorem -/

theorem totalCents_eq (items : List OrderLineItem) :
    OrderAggregate.totalCents items = (items.map fun i => i.qty * i.unitPriceCents).sum := by
  have hfold : ∀ (items : List OrderLineItem) (n : Num),
      items.foldl (fun sum i => sum + i.qty * i.unitPriceCents) n =
        n + (items.map fun i => i.qty * i.unitPriceCents).sum := by
    intro items
    induction items with
    | nil =>
      intro n
      simp
    | cons i items ih =>
      intro n
      rw [List.foldl_cons, ih, List.map_cons, List.sum_cons, add_assoc]
  rw [OrderAggregate.totalCents, hfold, zero_add]

/-- The payment is AUTHORIZED for the order and the sum of its items. -/
def PaidBy (s : Shared) (o p : Uuid) (items : List OrderLineItem) : Prop :=
  ∃ rows, HasStream .payment s.db p rows ∧ (replay .payment rows).status = .authorized ∧
    (replay .payment rows).orderId = o ∧
    (replay .payment rows).amountCents = (items.map fun i => i.qty * i.unitPriceCents).sum

/-- The reservation of the order is RESERVED, with its lines. -/
def HeldFor (s : Shared) (o : Uuid) (items : List OrderLineItem) : Prop :=
  ∃ rows, HasStream .inventory s.db o rows ∧ (replay .inventory rows).status = .reserved ∧
    (replay .inventory rows).lines = items.map fun i => { sku := i.sku, qty := i.qty }

structure CheckoutSafe (s : Shared) (o : Uuid) : Prop where
  /-- the gateway is asked only once the stock is reserved -/
  charged : ∀ t params reply, Event.acted t (.authorize params) reply ∈ s.trace →
    params.orderId = o → ∃ rows r event, HasStream .inventory s.db o rows ∧ r ∈ rows ∧
      r.event = .inventoryReserved event
  /-- a confirmed order is paid and reserved as the one CreateOrder command said -/
  confirmed : ∀ rows, HasStream .order s.db o rows → (replay .order rows).status = .confirmed →
    ∃ p items, (replay .order rows).paymentId = some p ∧ PaidBy s o p items ∧ HeldFor s o items ∧
      (∃ c, Published s .sagaCommands (.command c) ∧ c.type = .createOrder ∧
        c.payload.orderId = some o) ∧
      ∀ topic c, Published s topic (.command c) → c.type = .createOrder →
        c.payload.orderId = some o → c.payload.items = some items
  /-- no payment of a cancelled order was ever AUTHORIZED -/
  cancelled : ∀ rows, HasStream .order s.db o rows → (replay .order rows).status = .cancelled →
    ∀ p prows r event, HasStream .payment s.db p prows → r ∈ prows →
      r.event = .paymentAuthorized event → event.orderId ≠ o
  /-- the order is not told both -/
  final : ¬ (Asked s .confirmOrder o ∧ Asked s .cancelOrder o)

section Safe

variable {s : Shared} {o p customerId : Uuid} {items : List OrderLineItem}

/-- What an order that replays to CONFIRMED rests on. -/
theorem Recorded.of_confirmed {rows : List (EventStoreRow .order)} (h : Recorded s .order o rows)
    (hstatus : (replay .order rows).status = .confirmed) : ∃ customerId items p,
      (replay .order rows).paymentId = some p ∧ Placed s o customerId items ∧
        Authorized s o p (OrderAggregate.totalCents items) := by
  cases h with
  | nil => nomatch hstatus
  | created _ hevent =>
    rw [replay_one, hevent] at hstatus
    nomatch hstatus
  | cancelled _ _ _ hevent' =>
    rw [replay_two, hevent'] at hstatus
    nomatch hstatus
  | confirmed _ _ hplaced hauthorized hevent' =>
    rw [replay_two, hevent']
    exact ⟨_, _, _, rfl, hplaced, hauthorized⟩

/-- What an order that replays to CANCELLED rests on. -/
theorem Recorded.of_cancelled {rows : List (EventStoreRow .order)} (h : Recorded s .order o rows)
    (hstatus : (replay .order rows).status = .cancelled) : ReservationFailed s o ∨ Declined s o := by
  cases h with
  | nil => nomatch hstatus
  | created _ hevent =>
    rw [replay_one, hevent] at hstatus
    nomatch hstatus
  | confirmed _ _ _ _ hevent' =>
    rw [replay_two, hevent'] at hstatus
    nomatch hstatus
  | cancelled _ _ hfailed _ => exact hfailed

theorem Authorized.paidBy (h : Authorized s o p (OrderAggregate.totalCents items))
    (hI : CheckoutInv s) : PaidBy s o p items := by
  obtain ⟨r, lines, pspReference, hrows, hevent, -⟩ := h.stream hI
  refine ⟨_, hrows, ?_⟩
  rw [replay_one, hevent]
  exact ⟨rfl, rfl, totalCents_eq items⟩

theorem Reserved.heldFor {lines : List ReservationLine} (h : Reserved s o lines)
    (hI : CheckoutInv s) (hdrawn : DrawnOnce s) (hplaced : Placed s o customerId items) :
    HeldFor s o items := by
  obtain ⟨reservationId, r, more, hrows, hevent⟩ := h
  cases hI.streams _ _ _ hrows with
  | reserved hplaced' _ hevent' =>
    refine ⟨_, hrows, ?_⟩
    rw [replay_one, hevent', hplaced.unique hdrawn hplaced']
    exact ⟨rfl, rfl⟩
  | reservationFailed _ hevent' => nomatch hevent.symm.trans hevent'

/-- A CreateOrder command says what was placed. -/
theorem Commanded.items_eq {payload : Payload} (h : Commanded s .createOrder payload)
    (ho : payload.orderId = some o) (hdrawn : DrawnOnce s) (hplaced : Placed s o customerId items) :
    payload.items = some items := by
  cases h with
  | createOrder hplaced' =>
    obtain rfl := Option.some.inj ho
    rw [hplaced.unique hdrawn hplaced']

/-- Every AUTHORIZED payment is one that an order rests on. -/
theorem authorized_of_event {rows : List (EventStoreRow .payment)} {r : EventStoreRow .payment}
    {event : PaymentAuthorizedPayload} (hI : CheckoutInv s) (hrows : HasStream .payment s.db p rows)
    (hr : r ∈ rows) (hevent : r.event = .paymentAuthorized event) :
    Authorized s event.orderId p event.amountCents := by
  cases hI.streams _ _ _ hrows with
  | nil => nomatch hr
  | authorized _ _ _ hevent' =>
    obtain rfl := List.mem_singleton.mp hr
    obtain rfl := PaymentEvent.paymentAuthorized.inj (hevent.symm.trans hevent')
    have hfirst := hrows.first
    rw [hevent'] at hfirst
    exact ⟨_, hfirst⟩
  | declined _ _ hevent' =>
    obtain rfl := List.mem_singleton.mp hr
    nomatch hevent.symm.trans hevent'

end Safe

theorem checkoutSafe_of_inv {s : Shared} (hI : CheckoutInv s) (hdb : Consistent s.db)
    (hdrawn : DrawnOnce s) (o : Uuid) : CheckoutSafe s o where
  charged := by
    rintro t params reply hmem rfl
    obtain ⟨lines, reservationId, r, more, hrows, hevent⟩ := hI.charges t params reply hmem
    exact ⟨_, r, _, hrows, .head _, hevent⟩
  confirmed := by
    intro rows hrows hstatus
    obtain ⟨customerId, items, p, hp, hplaced, hauthorized⟩ :=
      (hI.streams _ _ _ hrows).of_confirmed hstatus
    obtain ⟨-, lines, -, -, -, hreserved⟩ := hauthorized.stream hI
    refine ⟨p, items, hp, hauthorized.paidBy hI, hreserved.heldFor hI hdrawn hplaced, ?_, ?_⟩
    · obtain ⟨-, c, hpublished, htype, hpayload⟩ := hplaced
      exact ⟨c, hpublished, htype, by rw [hpayload]⟩
    · intro topic c hpublished htype ho
      have hc := hI.commands topic c hpublished
      rw [htype] at hc
      exact hc.items_eq ho hdrawn hplaced
  cancelled := by
    rintro rows hrows hstatus p prows r event hpayment hr hevent rfl
    have hauthorized := authorized_of_event hI hpayment hr hevent
    exact hauthorized.not_failed hI hdb ((hI.streams _ _ _ hrows).of_cancelled hstatus)
  final := by
    rintro ⟨⟨topic, c, hpublished, htype, ho⟩, topic', c', hpublished', htype', ho'⟩
    have hc := hI.commands topic c hpublished
    have hc' := hI.commands topic' c' hpublished'
    rw [htype] at hc
    rw [htype'] at hc'
    obtain ⟨id, type, version, correlationId, issuedAt, payload⟩ := c
    cases hc with
    | confirmOrder _ hauthorized =>
      obtain rfl := Option.some.inj ho
      exact hauthorized.not_failed hI hdb (hc'.failed ho')

/-- **Checkout is safe from end to end.** -/
theorem checkoutSafe (s : LockState) (h : LockReach checkoutSystem anything s) (o : Uuid) :
    CheckoutSafe s.base.shared o := by
  have hreach := h.atomic.2
  exact checkoutSafe_of_inv
    (checkoutInv_of_reach rfl (fun _ _ ht => ht) (fun _ hs => hs) hreach)
    (Protocol.sound checkoutSystem_keeps hreach).inv (drawnOnce_of_reach hreach) o

/-! ## A sale -/

/-- Each id was drawn at its place in the trace. -/
def CountedDraws (s : Shared) : Prop :=
  ∀ t (id : Uuid), Event.acted t .randomUUID id ∈ s.trace → ∃ k < s.trace.length, id = uuidOf k

theorem mayAnswer_allWell (t : Task) : checkoutSystem.MayAnswer allWell t CountedDraws where
  reply := by
    intro s a hs
    cases a with
    | randomUUID =>
      intro _ t' id _ hmem heq
      obtain ⟨k, hlt, hid⟩ := hs t' id hmem
      have hk := uuidOf_injective (heq.trans hid)
      omega
    | _ => trivial
  acted := by
    intro s a hs t' id hmem
    obtain heq | hmem := List.mem_cons.mp hmem
    · injection heq with _ ha hid
      subst ha
      obtain rfl := eq_of_heq hid
      exact ⟨s.trace.length, Nat.lt_succ_self _, rfl⟩
    · obtain ⟨k, hlt, hid⟩ := hs t' id hmem
      exact ⟨k, Nat.lt_succ_of_lt hlt, hid⟩
  commit := by
    intro s w hs t' id hmem
    obtain heq | hmem := List.mem_cons.mp hmem
    · nomatch heq
    · obtain ⟨k, hlt, hid⟩ := hs t' id hmem
      exact ⟨k, Nat.lt_succ_of_lt hlt, hid⟩

instance decidableMayStart (answer : ℕ → (a : Act) → Act.Reply a) :
    (ts : List Task) → (s : Shared) → Decidable (checkoutSystem.MayStart answer ts s)
  | [], _ => .isTrue trivial
  | t :: ts, s =>
    have := decidableMayStart answer ts (Proc.run answer t (checkoutSystem.code t) s).2
    inferInstanceAs (Decidable (Delivered s t ∧
      checkoutSystem.MayStart answer ts (Proc.run answer t (checkoutSystem.code t) s).2))

/-- The `offset`-th message of its topic, in a checkout with correlation id "c". -/
def saleCommand (offset : ℕ) (id : Uuid) (type : CommandType) (payload : Payload) :
    Record CommandEnvelope where
  topic := .sagaCommands
  partition := 0
  offset := offset
  value :=
    { id, type, version := eventEnvelopeVersion, correlationId := "c", issuedAt := "t", payload }

def saleEvent (topic : Topic) (id : Uuid) (type : EventType) (aggregateId : Uuid)
    (payload : Payload) : Task :=
  .event
    { topic, partition := 0, offset := 0
      value := { id, type, correlationId := "c", aggregateId, payload } }

/-- Two of five, at five hundred each: from the request to ORDER_CONFIRMED. -/
def sale : List Task :=
  let items : List OrderLineItem := [{ sku := "A", qty := 2, unitPriceCents := 500 }]
  let lines : List ReservationLine := [{ sku := "A", qty := 2 }]
  let (o, p) := (uuidOf 0, uuidOf 27)
  [.createOrder customer₁ items "c",
    .command .order (saleCommand 0 (uuidOf 1) .createOrder
      { orderId := some o, customerId := some customer₁, items := some items }),
    .relay .order (rowId 5 1),
    saleEvent .orderEvents (rowId 5 1) .orderCreated o
      { orderId := some o, customerId := some customer₁, items := some items
        totalCents := some 1000 },
    .command .inventory (saleCommand 1 (uuidOf 9) .reserveStock
      { orderId := some o, lines := some lines }),
    .relay .inventory (rowId 17 1),
    saleEvent .inventoryEvents (rowId 17 1) .inventoryReserved o
      { orderId := some o, lines := some lines, reservationId := some (uuidOf 15) },
    .command .payment (saleCommand 2 (uuidOf 22) .authorizePayment
      { orderId := some o, customerId := some customer₁, amountCents := some 1000 }),
    .relay .payment (rowId 30 1),
    saleEvent .paymentEvents (rowId 30 1) .paymentAuthorized p
      { orderId := some o, amountCents := some 1000, paymentId := some p
        pspReference := some "psp" },
    .command .order (saleCommand 3 (uuidOf 36) .confirmOrder
      { orderId := some o, paymentId := some p })]

theorem onlyStocked_fiveInStock : OnlyStocked fiveInStock :=
  fun _ hk => Store.row_cons_ne _ _ (hk "A")

theorem reach_sale : Reach checkoutSystem anything (.idle (checkoutSystem.runs allWell sale
    ⟨fiveInStock, []⟩)) := by
  refine Reach.runs_of sale (.start ⟨onlyStocked_fiveInStock, rfl⟩) (by decide +kernel)
    (fun t _ => mayAnswer_allWell t) ?_
  intro t id hmem
  nomatch hmem

/-- The order is confirmed, and safely. -/
theorem checkoutSafe_sale : ∃ s : LockState,
    (Store.row s.base.shared.db (.eventStore .order (uuidOf 0) 2)).isSome ∧
    CheckoutSafe s.base.shared (uuidOf 0) :=
  ⟨_, by decide +kernel, checkoutSafe _ reach_sale.withLocks (uuidOf 0)⟩

end Saganova
