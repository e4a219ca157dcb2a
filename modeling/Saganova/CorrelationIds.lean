import Saganova.CheckoutSafety

/-!
# One correlation id per checkout

Every message, stored event, outbox row and saga row belongs to one order, and
carries the correlation id of the request that created it
(`correlationPropagated`).  The id is handed on at every hop: a handler stores
what its command carried, the relay what was stored, and the orchestrator what
the event carried that it reacts to, whichever row it read.

`ServiceStep` says so of every task but the gateway's, whose own promise is
`labelProtocol`.
-/

namespace Saganova

open Concurrency Decision

/-! ## The gateway -/

/-- A request publishes commands with its own correlation id. -/
def Labels : Task → Act → Prop
  | .createOrder _ _ correlationId, .publish _ (.command c) _ => c.correlationId = correlationId
  | _, _ => True

def Labelled (s : Shared) : Prop := ∀ t a res, Event.acted t a res ∈ s.trace → Labels t a

theorem Labelled.acted {s : Shared} (h : Labelled s) {t : Task} {a : Act} (ha : Labels t a)
    (res : Act.Reply a) : Labelled (s.acted t a res) := by
  intro t' a' res' hmem
  obtain heq | hmem := List.mem_cons.mp hmem
  · cases heq
    exact ha
  · exact h t' a' res' hmem

theorem Labelled.commit {s : Shared} (h : Labelled s) (t : Task) (w : Db) :
    Labelled (s.commit t w) := by
  intro t' a' res' hmem
  obtain heq | hmem := List.mem_cons.mp hmem
  · nomatch heq
  · exact h t' a' res' hmem

def labelProtocol : Protocol Row Err Act.Reply Task where
  inv := Labelled
  rely := fun _ _ => True
  guar := fun _ _ _ s' => Labelled s'
  rely_refl := fun _ => trivial
  rely_trans := fun _ _ => trivial
  guar_inv := fun _ h => h
  guar_rely := fun _ _ => trivial

section Gateway

variable {S : System} {seen : Db} {s : Shared}

theorem labels_createOrder (customerId : Uuid) (items : List OrderLineItem)
    (correlationId : String) : (code (.createOrder customerId items correlationId)).wp S
      labelProtocol (.createOrder customerId items correlationId) (fun _ _ _ => True) seen s := by
  show Proc.wp S labelProtocol _ _ (OrdersService.createOrder customerId items correlationId) _ _
  unfold OrdersService.createOrder makeCommand
  simp only [randomUUID_bind, now_bind, Proc.act_bind]
  intro s₁ _ hinv₁ orderId _ _
  refine ⟨hinv₁.acted (by trivial) _, ?_⟩
  intro s₂ _ hinv₂ id _ _
  refine ⟨hinv₂.acted (by trivial) _, ?_⟩
  intro s₃ _ hinv₃ time _ _
  refine ⟨hinv₃.acted (by trivial) _, ?_⟩
  intro s₄ _ hinv₄ res _ _
  refine ⟨hinv₄.acted (by exact rfl) _, ?_⟩
  cases res <;> trivial

/-- Only requests have a correlation id of their own to publish. -/
theorem labels_code (t : Task) :
    (code t).wp S labelProtocol t (fun _ _ _ => True) seen s := by
  have hcommit : ∀ seen s w, labelProtocol.inv s → labelProtocol.guar t seen s (s.commit t w) :=
    fun _ _ w hinv => Labelled.commit hinv t w
  cases t with
  | createOrder customerId items correlationId => exact labels_createOrder _ _ _
  | command _ _ => exact Proc.wp_of_guar (fun _ _ a r h => Labelled.acted h (by trivial) r) hcommit _
  | event _ => exact Proc.wp_of_guar (fun _ _ a r h => Labelled.acted h (by trivial) r) hcommit _
  | relay _ _ => exact Proc.wp_of_guar (fun _ _ a r h => Labelled.acted h (by trivial) r) hcommit _

theorem labelled_of_reach {G : Guard} (hcode : S.code = code)
    (hstart : ∀ s, S.start s → s.trace = []) {s : State} (h : Reach S G s) :
    Labelled s.shared := by
  have hkeeps : S.Keeps labelProtocol G := by
    refine ⟨fun s hs t a res hmem => absurd hmem (not_acted (hstart s hs) t a res), ?_, ?_⟩
    · exact fun _ _ _ _ _ _ => trivial
    · intro s t _ _
      rw [hcode]
      exact labels_code t
  exact (Protocol.sound hkeeps h).inv

end Gateway

/-! ## Hops -/

section Hops

variable {o : Uuid} {correlationId : String} {row : Option SagaInstanceRow}

theorem decisionOf_orderId {e : EventEnvelope} {decision : Option SagaInstanceRow → Decision}
    (hdec : decisionOf e = some (o, decision)) : e.payload.orderId = some o := by
  by_cases hcreated : e.type = .orderCreated
  · unfold decisionOf at hdec
    rw [if_pos hcreated] at hdec
    split at hdec
    · rename_i items orderId hitems horder
      obtain ⟨rfl, -⟩ := Prod.mk.inj (Option.some.inj hdec)
      exact horder
    · nomatch hdec
  · exact (decisionOf_onEvent hcreated hdec).1

/-- What the orchestrator publishes for an event is about the event's order. -/
theorem publishes_orderId {e : EventEnvelope} {decision : Option SagaInstanceRow → Decision}
    {c : CommandEnvelope} (hdec : decisionOf e = some (o, decision))
    (h : (decision row).Publishes correlationId c) : c.payload.orderId = some o := by
  by_cases hcreated : e.type = .orderCreated
  · unfold decisionOf at hdec
    rw [if_pos hcreated] at hdec
    split at hdec
    · obtain ⟨rfl, rfl⟩ := Prod.mk.inj (Option.some.inj hdec)
      cases row with
      | some _ => exact h.elim
      | none =>
        obtain ⟨-, -, hpayload⟩ := h
        rw [hpayload]
    · nomatch hdec
  · obtain ⟨horder, hdecision⟩ := decisionOf_onEvent hcreated hdec
    have hspread : ∀ context : OrderFulfillmentContext,
        (context.spread e.payload).orderId = some o :=
      fun _ => Payload.spread_orderId_of_some horder
    rw [hdecision] at h
    obtain hignore | ⟨err, hfail⟩ | ⟨r, -, hcases⟩ := decideEvent_cases row e.type e.payload
    · rw [hignore] at h
      exact h.elim
    · rw [hfail] at h
      exact h.elim
    obtain hresave | ⟨-, hadvance⟩ | ⟨-, hcomplete⟩ | ⟨-, step, hcancel⟩ := hcases
    · rw [hresave] at h
      exact h.elim
    · rw [hadvance] at h
      rw [h.2.2]
      exact hspread _
    · rw [hcomplete] at h
      rw [h.2.2]
      exact hspread _
    · rw [hcancel] at h
      rw [h.2.2]
      exact hspread _

theorem Decision.Publishes.correlationId_eq {decision : Decision} {c : CommandEnvelope}
    (h : decision.Publishes correlationId c) : c.correlationId = correlationId := by
  cases decision with
  | start _ => exact h.1
  | advance _ _ => exact h.1
  | complete _ _ => exact h.1
  | cancel _ _ _ => exact h.1
  | ignore => exact h.elim
  | fail _ => exact h.elim
  | resave _ => exact h.elim

theorem Decision.Writes.correlationId_eq {decision : Decision} {r : SagaInstanceRow}
    (h : decision.Writes correlationId r) : r.correlationId = correlationId := by
  cases decision with
  | resave _ =>
    rw [h]
  | start _ =>
    obtain ⟨time, rfl⟩ := h
    rfl
  | advance _ _ =>
    obtain ⟨time, rfl⟩ := h
    rfl
  | complete _ _ =>
    obtain ⟨time, rfl⟩ := h
    rfl
  | cancel _ _ _ =>
    obtain ⟨time, rfl⟩ := h
    rfl
  | ignore => exact h.elim
  | fail _ => exact h.elim

/-- What a handler appends has the order and the correlation id of its command. -/
theorem Appends.carries {s : Shared} {t : Task} {svc : Service} {id : String}
    {rows : List (EventStoreRow svc)} {r : EventStoreRow svc} (h : Appends s t svc id rows r)
    (hcommands : ∀ svc (r : Record CommandEnvelope), t = .command svc r →
      Commanded s r.value.type r.value.payload) :
    ∃ svc' command, t = .command svc' command ∧
      r.correlationId = command.value.correlationId ∧
      (svc.payload r.event).orderId = command.value.payload.orderId := by
  cases h with
  | created _ ho _ _ => exact ⟨_, _, rfl, rfl, ho.symm⟩
  | confirmed _ ho _ _ _ => exact ⟨_, _, rfl, rfl, ho.symm⟩
  | cancelled _ ho _ _ _ => exact ⟨_, _, rfl, rfl, ho.symm⟩
  | @charged r command p reply result time hcommand _ _ =>
    refine ⟨_, _, rfl, hcommand.correlationId.symm, ?_⟩
    rw [hcommand.orderId]
    show (PaymentEvent.payload (AuthorizePaymentHandler.event command id result)).orderId = _
    unfold AuthorizePaymentHandler.event
    split <;> rfl
  | refunded htype _ _ _ =>
    have hc := hcommands _ _ rfl
    rw [htype] at hc
    nomatch hc
  | reserved _ ho _ => exact ⟨_, _, rfl, rfl, ho.symm⟩
  | failed _ ho => exact ⟨_, _, rfl, rfl, ho.symm⟩
  | released _ ho _ _ => exact ⟨_, _, rfl, rfl, ho.symm⟩

end Hops

/-! ## The invariant -/

/-- The order was created by a request with the correlation id. -/
def RequestedBy (s : Shared) (o : Uuid) (correlationId : String) : Prop :=
  ∃ customerId items,
    Event.acted (.createOrder customerId items correlationId) .randomUUID o ∈ s.trace ∧
    ∃ c key res, Event.acted (.createOrder customerId items correlationId)
        (.publish .sagaCommands (.command c) key) res ∈ s.trace ∧
      c.type = .createOrder ∧ c.payload.orderId = some o

/-- The payload is about an order that was created with the correlation id. -/
def Attributed (s : Shared) (payload : Payload) (correlationId : String) : Prop :=
  ∃ o, payload.orderId = some o ∧ RequestedBy s o correlationId

structure CorrelationInv (s : Shared) : Prop where
  commands : ∀ topic c, Published s topic (.command c) → Attributed s c.payload c.correlationId
  events : ∀ topic e, Published s topic (.event e) → Attributed s e.payload e.correlationId
  rows : ∀ svc id rows, HasStream svc s.db id rows → ∀ r ∈ rows,
    Attributed s (svc.payload r.event) r.correlationId
  sagas : ∀ o row, Store.row s.db (.sagaInstance o) = some row → RequestedBy s o row.correlationId

section Attributed

variable {s s' : Shared} {o : Uuid} {payload payload' : Payload}
  {correlationId correlationId' : String}

theorem RequestedBy.grow (h : RequestedBy s o correlationId) (hgrow : Grows s s') :
    RequestedBy s' o correlationId := by
  obtain ⟨customerId, items, hdrawn, c, key, res, hpublished, hrest⟩ := h
  exact ⟨customerId, items, hgrow.trace.subset hdrawn, c, key, res,
    hgrow.trace.subset hpublished, hrest⟩

/-- An order has one request, and so one correlation id. -/
theorem RequestedBy.unique (h : RequestedBy s o correlationId)
    (h' : RequestedBy s o correlationId') (hdrawn : DrawnOnce s) :
    correlationId' = correlationId := by
  obtain ⟨customerId, items, hmem, -⟩ := h
  obtain ⟨customerId', items', hmem', -⟩ := h'
  have htask := hdrawn (.createOrder customerId' items' correlationId')
    (.createOrder customerId items correlationId) o trivial trivial hmem' hmem
  injection htask

theorem Attributed.grow (h : Attributed s payload correlationId) (hgrow : Grows s s') :
    Attributed s' payload correlationId :=
  h.imp fun _ h => ⟨h.1, h.2.grow hgrow⟩

theorem Attributed.requestedBy (h : Attributed s payload correlationId)
    (ho : payload.orderId = some o) : RequestedBy s o correlationId := by
  obtain ⟨o', ho', hrequested⟩ := h
  obtain rfl := Option.some.inj (ho.symm.trans ho')
  exact hrequested

/-- One hop: the order and the correlation id are handed on. -/
theorem Attributed.hop (h : Attributed s payload correlationId)
    (ho : payload'.orderId = payload.orderId) (hid : correlationId' = correlationId) :
    Attributed s payload' correlationId' := by
  obtain ⟨o, hpayload, hrequested⟩ := h
  rw [hid]
  exact ⟨o, ho.trans hpayload, hrequested⟩

end Attributed

section Step

variable {t : Task} {seen : Db} {s s' : Shared}

theorem MayPublish.command_attributed {topic : Topic} {c : CommandEnvelope} {key : String}
    {res : Act.Reply (.publish topic (.command c) key)}
    (h : MayPublish s seen topic (.command c) key t) (hI : CorrelationInv s)
    (ht : Delivered s t) (hgrow : Grows s s') (hlabelled : Labelled s')
    (hpublished : Event.acted t (.publish topic (.command c) key) res ∈ s'.trace) :
    Attributed s' c.payload c.correlationId := by
  obtain ⟨rfl, hrequest | ⟨r, orderId, decision, rfl, hdec, hpublishes⟩⟩ := h.of_command
  · obtain ⟨customerId, items, correlationId, rfl, htype, hpayload, hdrawn⟩ := hrequest
    have hid : c.correlationId = correlationId := hlabelled _ _ res hpublished
    have ho : c.payload.orderId = some key := by rw [hpayload]
    refine ⟨key, ho, customerId, items, ?_⟩
    rw [hid]
    exact ⟨hgrow.trace.subset hdrawn, c, key, res, hpublished, htype, ho⟩
  · have hevent := (hI.events _ _ ht).grow hgrow
    have ho := (publishes_orderId hdec hpublishes).trans (decisionOf_orderId hdec).symm
    exact hevent.hop ho hpublishes.correlationId_eq

/-- An outbox row has the order and the correlation id of its event. -/
theorem CorrelationInv.outbox (hI : CorrelationInv s) (hdb : Consistent s.db) {svc : Service}
    {oid : Uuid} {row : OutboxRow} (hrow : Store.row s.db (.outbox svc oid) = some row) :
    Attributed s row.payload row.correlationId := by
  obtain ⟨rows, hrows, r, hr, hsame⟩ := hdb.outbox_event hrow
  rw [hsame]
  exact hI.rows svc _ rows hrows r hr

theorem MayPublish.event_attributed {topic : Topic} {e : EventEnvelope} {key : String}
    (h : MayPublish s seen topic (.event e) key t) (hI : CorrelationInv s)
    (hdb : Consistent s.db) : Attributed s e.payload e.correlationId := by
  obtain ⟨svc, oid, row, rfl, hrow, heq⟩ := h.of_event
  obtain rfl := Message.event.inj heq
  exact hI.outbox hdb hrow

/-- **Every step hands the correlation id on.** -/
theorem CorrelationInv.step (hI : CorrelationInv s) (hcheckout : CheckoutInv s)
    (hdb : Consistent s.db) (ht : Delivered s t) (hlabelled : Labelled s')
    (h : ServiceStep t seen s s') : CorrelationInv s' := by
  have hgrow := h.grows hdb
  constructor
  · rintro topic c ⟨task, key, res, hmem⟩
    obtain hold | ⟨rfl, hallowed, -⟩ := h.new_event hmem
    · exact (hI.commands topic c ⟨task, key, res, hold⟩).grow hgrow
    · exact MayPublish.command_attributed hallowed hI ht hgrow hlabelled hmem
  · rintro topic e ⟨task, key, res, hmem⟩
    obtain hold | ⟨rfl, hallowed, -⟩ := h.new_event hmem
    · exact (hI.events topic e ⟨task, key, res, hold⟩).grow hgrow
    · exact (MayPublish.event_attributed hallowed hI hdb).grow hgrow
  · intro svc id rows hrows r hr
    obtain hold | ⟨rows', r', hrows', rfl, happ⟩ := h.stream_before hrows
    · exact (hI.rows svc id rows hold r hr).grow hgrow
    · obtain hr | hr := List.mem_append.mp hr
      · exact (hI.rows svc id rows' hrows' r hr).grow hgrow
      · obtain rfl := List.mem_singleton.mp hr
        obtain ⟨svc', command, rfl, hid, ho⟩ := happ.carries (by
          rintro svc' command rfl
          exact hcheckout.commands _ _ ht)
        exact ((hI.commands _ _ ht).hop ho hid).grow hgrow
  · intro o row hrow
    obtain hsame | ⟨r, decision, row', rfl, hdec, hwrites, hrow'⟩ := h.saga_cases o
    · rw [hsame] at hrow
      exact (hI.sagas o row hrow).grow hgrow
    · obtain rfl := Option.some.inj (hrow.symm.trans hrow')
      rw [hwrites.correlationId_eq]
      exact ((hI.events _ _ ht).requestedBy (decisionOf_orderId hdec)).grow hgrow

theorem CorrelationInv.start (hdb : OnlyStocked s.db) (htrace : s.trace = []) :
    CorrelationInv s where
  commands topic c hpublished := absurd hpublished (not_published htrace topic _)
  events topic e hpublished := absurd hpublished (not_published htrace topic _)
  rows svc id rows hrows r hr := by
    rw [hdb.fresh.stream_nil hrows] at hr
    nomatch hr
  sagas o row hrow := by
    rw [hdb (.sagaInstance o) nofun] at hrow
    nomatch hrow

end Step

/-! ## Every run -/

theorem correlationInv_of_reach {S : System} {G : Guard} (hcode : S.code = code)
    (hspawn : ∀ s t, S.spawn s t → Delivered s.shared t)
    (hstart : ∀ s, S.start s → OnlyStocked s.db ∧ s.trace = []) {s : State} (h : Reach S G s) :
    CorrelationInv s.shared := by
  have hkeeps : S.Keeps serviceProtocol G :=
    keepsServiceProtocol hcode fun s hs => (hstart s hs).1.fresh.consistent
  refine Protocol.invariant_of_known hkeeps (K := fun s => CheckoutInv s ∧ Labelled s)
    (fun s hs => ?_) (J := fun s t _ => Delivered s t) hspawn
    (fun t seen s s' hgrow ht => Delivered.grow ht hgrow) (fun _ _ _ _ ht => ht)
    (fun s hs => .start (hstart s hs).1 (hstart s hs).2)
    (fun t seen s s' hdb hK hK' htook hI hstep => ?_) h
  · exact ⟨checkoutInv_of_reach hcode hspawn hstart hs,
      labelled_of_reach hcode (fun s hs => (hstart s hs).2) hs⟩
  · exact hI.step hK.1 hdb htook.task hK'.2 hstep

/-- The one correlation id that a request created the order with. -/
def IsCorrelationId (s : Shared) (o : Uuid) (correlationId : String) : Prop :=
  RequestedBy s o correlationId ∧
    ∀ correlationId', RequestedBy s o correlationId' → correlationId' = correlationId

/-- The payload is about an order, and the correlation id is the order's. -/
def CarriesCorrelationId (s : Shared) (payload : Payload) (correlationId : String) : Prop :=
  ∃ o, payload.orderId = some o ∧ IsCorrelationId s o correlationId

structure OneCorrelationId (s : Shared) : Prop where
  commands : ∀ topic c, Published s topic (.command c) →
    CarriesCorrelationId s c.payload c.correlationId
  /-- the relayed events -/
  events : ∀ topic e, Published s topic (.event e) →
    CarriesCorrelationId s e.payload e.correlationId
  eventStore : ∀ svc id version (row : EventStoreRow svc),
    Store.row s.db (.eventStore svc id version) = some row →
      CarriesCorrelationId s (svc.payload row.event) row.correlationId
  outbox : ∀ svc oid (row : OutboxRow), Store.row s.db (.outbox svc oid) = some row →
    CarriesCorrelationId s row.payload row.correlationId
  sagaInstance : ∀ o (row : SagaInstanceRow), Store.row s.db (.sagaInstance o) = some row →
    IsCorrelationId s o row.correlationId

theorem RequestedBy.isCorrelationId {s : Shared} {o : Uuid} {correlationId : String}
    (h : RequestedBy s o correlationId) (hdrawn : DrawnOnce s) :
    IsCorrelationId s o correlationId :=
  ⟨h, fun _ h' => h.unique h' hdrawn⟩

theorem Attributed.carries {s : Shared} {payload : Payload} {correlationId : String}
    (h : Attributed s payload correlationId) (hdrawn : DrawnOnce s) :
    CarriesCorrelationId s payload correlationId :=
  h.imp fun _ h => ⟨h.1, h.2.isCorrelationId hdrawn⟩

/-- A row of the event store is one of its stream. -/
theorem HasStream.mem_of_row {db : Db} {svc : Service} {id : String}
    {rows : List (EventStoreRow svc)} (h : HasStream svc db id rows) {version : ℕ}
    {row : EventStoreRow svc} (hrow : Store.row db (.eventStore svc id version) = some row) :
    row ∈ rows := by
  cases version with
  | zero =>
    rw [h.1] at hrow
    nomatch hrow
  | succ k =>
    rw [h.2 k] at hrow
    exact List.mem_of_getElem? hrow

theorem CorrelationInv.oneCorrelationId {s : Shared} (hI : CorrelationInv s)
    (hdb : Consistent s.db) (hdrawn : DrawnOnce s) : OneCorrelationId s := by
  constructor
  · intro topic c hpublished
    exact (hI.commands topic c hpublished).carries hdrawn
  · intro topic e hpublished
    exact (hI.events topic e hpublished).carries hdrawn
  · intro svc id version row hrow
    obtain ⟨rows, hrows⟩ := hdb.stream svc id
    exact (hI.rows svc id rows hrows row (hrows.mem_of_row hrow)).carries hdrawn
  · intro svc oid row hrow
    exact (hI.outbox hdb hrow).carries hdrawn
  · intro o row hrow
    exact (hI.sagas o row hrow).isCorrelationId hdrawn

theorem oneCorrelationId_of_reach {s : State} (h : Reach checkoutSystem anything s) :
    OneCorrelationId s.shared := by
  have hdb : Consistent s.shared.db := (Protocol.sound checkoutSystem_keeps h).inv
  have hdrawn := drawnOnce_of_reach h
  have hI := correlationInv_of_reach rfl (fun _ _ ht => ht) (fun _ hs => hs) h
  exact hI.oneCorrelationId hdb hdrawn

/-- **One correlation id per checkout.** -/
theorem correlationPropagated (s : LockState) (h : LockReach checkoutSystem anything s) :
    OneCorrelationId s.base.shared := by
  -- a run with locks is one of the same steps without them
  have hreach : Reach checkoutSystem anything s.base := h.atomic.2
  exact oneCorrelationId_of_reach hreach

/-- The sale's last event carries the correlation id of its first request. -/
theorem correlationPropagated_sale : ∃ s : LockState,
    (Store.row s.base.shared.db (.eventStore .order (uuidOf 0) 2)).map (·.correlationId) = some "c" ∧
    OneCorrelationId s.base.shared :=
  ⟨_, by decide +kernel, correlationPropagated _ reach_sale.withLocks⟩

end Saganova
