import Saganova.AuditTrail

/-!
# The story of a checkout

Where nothing is outstanding and the audit consumer has caught up, the audit log
tells all: the trail of an order's correlation id has, of the order, exactly the
commands and events of the way it ended (`auditStory`), and by aggregate it has
exactly the events of the event stores (`auditedStreams`).
-/

namespace Saganova

open Concurrency

/-! ## What is published at rest -/

namespace CheckoutPhase

/-- The commands that have been published for an order at the phase. -/
def commands : CheckoutPhase → List CommandType
  | .reserving => [.createOrder, .reserveStock]
  | .charging => [.createOrder, .reserveStock, .authorizePayment]
  | .completed => [.createOrder, .reserveStock, .authorizePayment, .confirmOrder]
  | .unreserved => [.createOrder, .reserveStock, .cancelOrder]
  | .declined => [.createOrder, .reserveStock, .authorizePayment, .cancelOrder]

/-- The events that its streams have in the end. -/
def events : CheckoutPhase → List EventType
  | .reserving => [.orderCreated]
  | .charging => [.orderCreated, .inventoryReserved]
  | .completed => [.orderCreated, .inventoryReserved, .paymentAuthorized, .orderConfirmed]
  | .unreserved => [.orderCreated, .inventoryReservationFailed, .orderCancelled]
  | .declined => [.orderCreated, .inventoryReserved, .paymentDeclined, .orderCancelled]

/-- Their types, as the audit log has them. -/
def story (phase : CheckoutPhase) : List String :=
  phase.commands.map CommandType.text ++ phase.events.map EventType.text

end CheckoutPhase

/-- An event of the type about the order is in a stream. -/
def Stored (s : Shared) (type : EventType) (o : Uuid) : Prop :=
  ∃ svc id rows, HasStream svc s.db id rows ∧ ∃ r ∈ rows,
    svc.eventType r.event = type ∧ (svc.payload r.event).orderId = some o

/-- What an event about the order tells, by its type. -/
inductive Tells (s : Shared) (o : Uuid) : EventType → Prop
  | created : Tells s o .orderCreated
  | confirmed {customerId : Uuid} {items : List OrderLineItem} {p : Uuid} :
      Placed s o customerId items → Authorized s o p (OrderAggregate.totalCents items) →
      Tells s o .orderConfirmed
  | cancelled : ReservationFailed s o ∨ Declined s o → Tells s o .orderCancelled
  | reserved {lines : List ReservationLine} : Reserved s o lines → Tells s o .inventoryReserved
  | reservationFailed : ReservationFailed s o → Tells s o .inventoryReservationFailed
  | authorized {customerId : Uuid} {items : List OrderLineItem} {p : Uuid} :
      Placed s o customerId items → Authorized s o p (OrderAggregate.totalCents items) →
      Tells s o .paymentAuthorized
  | declined : Declined s o → Tells s o .paymentDeclined

section Rests

variable {s : Shared} {o : Uuid} {phase : CheckoutPhase}

/-- What could not be reserved was not reserved. -/
theorem CheckoutPhase.Rests.ne_unreserved (hrests : phase.Rests s o)
    {lines : List ReservationLine} (hreserved : Reserved s o lines) : phase ≠ .unreserved := by
  rintro rfl
  obtain ⟨_, _, hfailed⟩ := hrests
  obtain ⟨_, hreserved⟩ := hreserved
  cases hfailed.unique hreserved

/-- A command about the order is one of the way it ended. -/
theorem CheckoutPhase.Rests.mem_commands (hrests : phase.Rests s o)
    (hfinal : phase.sagaStatus ≠ .inProgress) (hI : CheckoutInv s) (hdb : Consistent s.db)
    {type : CommandType} (h : Asked s type o) : type ∈ phase.commands := by
  obtain ⟨topic, c, hpublished, rfl, ho⟩ := h
  have hcommand := hI.commands topic c hpublished
  obtain ⟨id, type, version, correlationId, issuedAt, payload⟩ := c
  cases hcommand with
  | createOrder _ => cases phase <;> simp [CheckoutPhase.commands]
  | reserveStock _ => cases phase <;> simp [CheckoutPhase.commands]
  | authorizePayment _ hreserved =>
    obtain rfl := Option.some.inj ho
    cases phase with
    | reserving => exact absurd rfl hfinal
    | unreserved => exact absurd rfl (hrests.ne_unreserved hreserved)
    | charging | completed | declined => simp [CheckoutPhase.commands]
  | confirmOrder hplaced hauthorized =>
    obtain rfl := Option.some.inj ho
    have hcompleted : CheckoutPhase.completed.Rests s _ := ⟨_, _, _, hplaced, hauthorized⟩
    obtain rfl := hcompleted.agree hrests hI hdb (by simp [CheckoutPhase.sagaStatus]) hfinal
    simp [CheckoutPhase.commands]
  | cancelOrder hfailed =>
    obtain rfl := Option.some.inj ho
    cases phase with
    | reserving => exact absurd rfl hfinal
    | charging => exact absurd rfl hfinal
    | completed =>
      obtain ⟨_, _, p, -, hauthorized⟩ := hrests
      exact absurd hfailed (hauthorized.not_failed hI hdb)
    | unreserved | declined => simp [CheckoutPhase.commands]

/-- What was reserved or not was to be reserved, and what was paid or declined to be paid. -/
theorem CheckoutPhase.Rests.asked (hrests : phase.Rests s o)
    (hfinal : phase.sagaStatus ≠ .inProgress) (hI : CheckoutInv s)
    (hcreated : Asked s .createOrder o) (hawaits : Asked s phase.awaits o) {type : CommandType}
    (hmem : type ∈ phase.commands) : Asked s type o := by
  cases phase with
  | reserving => exact absurd rfl hfinal
  | charging => exact absurd rfl hfinal
  | completed =>
    obtain ⟨_, _, p, -, hauthorized⟩ := hrests
    obtain ⟨_, _, hreserved⟩ := (hauthorized.paymentOf hI).reserved hI
    have hreserve := hreserved.asked_reserveStock hI
    have hauthorize := hauthorized.asked hI
    simp only [CheckoutPhase.commands, List.mem_cons, List.not_mem_nil, or_false] at hmem
    rcases hmem with rfl | rfl | rfl | rfl <;> assumption
  | unreserved =>
    obtain ⟨_, _, hfailed⟩ := hrests
    have hreserve := hfailed.asked_reserveStock hI
    simp only [CheckoutPhase.commands, List.mem_cons, List.not_mem_nil, or_false] at hmem
    rcases hmem with rfl | rfl | rfl <;> assumption
  | declined =>
    have hauthorize := Declined.asked hrests hI
    obtain ⟨_, _, hpayment⟩ := Declined.declinedBy hrests hI
    obtain ⟨_, _, hreserved⟩ := hpayment.reserved hI
    have hreserve := hreserved.asked_reserveStock hI
    simp only [CheckoutPhase.commands, List.mem_cons, List.not_mem_nil, or_false] at hmem
    rcases hmem with rfl | rfl | rfl | rfl <;> assumption

/-- **The commands of a checkout that has ended.** -/
theorem CheckoutPhase.Rests.asked_iff (hrests : phase.Rests s o)
    (hfinal : phase.sagaStatus ≠ .inProgress) (hI : CheckoutInv s) (hdb : Consistent s.db)
    (hcreated : Asked s .createOrder o) (hawaits : Asked s phase.awaits o) {type : CommandType} :
    Asked s type o ↔ type ∈ phase.commands :=
  ⟨hrests.mem_commands hfinal hI hdb, hrests.asked hfinal hI hcreated hawaits⟩

theorem First.stored {svc : Service} {id : String} {event : svc.Event}
    (h : First svc s id event) (ho : (svc.payload event).orderId = some o) :
    Stored s (svc.eventType event) o := by
  obtain ⟨r, more, hrows, rfl⟩ := h
  exact ⟨svc, id, _, hrows, r, List.mem_cons_self, rfl, ho⟩

/-- **An event that is stored tells what it rests on.** -/
theorem Stored.tells (hI : CheckoutInv s) {type : EventType} (h : Stored s type o) :
    Tells s o type := by
  obtain ⟨svc, id, rows, hrows, r, hr, rfl, ho⟩ := h
  cases hI.streams _ _ _ hrows with
  | nil => cases hr
  | created _ hevent =>
    obtain rfl := List.mem_singleton.mp hr
    rw [hevent]
    exact .created
  | confirmed _ hevent hplaced hpaid hevent' =>
    obtain rfl | hr := List.mem_cons.mp hr
    · rw [hevent]
      exact .created
    · obtain rfl := List.mem_singleton.mp hr
      rw [hevent'] at ho ⊢
      obtain rfl := Option.some.inj ho
      exact .confirmed hplaced hpaid
  | cancelled _ hevent hfailed hevent' =>
    obtain rfl | hr := List.mem_cons.mp hr
    · rw [hevent]
      exact .created
    · obtain rfl := List.mem_singleton.mp hr
      rw [hevent'] at ho ⊢
      obtain rfl := Option.some.inj ho
      exact .cancelled hfailed
  | reserved _ _ hevent =>
    obtain rfl := List.mem_singleton.mp hr
    have hfirst := hrows.first
    rw [hevent] at ho hfirst ⊢
    obtain rfl := Option.some.inj ho
    exact .reserved ⟨_, hfirst⟩
  | reservationFailed _ hevent =>
    obtain rfl := List.mem_singleton.mp hr
    have hfirst := hrows.first
    rw [hevent] at ho hfirst ⊢
    obtain rfl := Option.some.inj ho
    exact .reservationFailed ⟨_, _, hfirst⟩
  | authorized hplaced _ _ hevent =>
    obtain rfl := List.mem_singleton.mp hr
    have hfirst := hrows.first
    rw [hevent] at ho hfirst ⊢
    obtain rfl := Option.some.inj ho
    exact .authorized hplaced ⟨_, hfirst⟩
  | declined _ _ hevent =>
    obtain rfl := List.mem_singleton.mp hr
    have hfirst := hrows.first
    rw [hevent] at ho hfirst ⊢
    obtain rfl := Option.some.inj ho
    exact .declined ⟨_, _, _, hfirst⟩

/-- An event that is stored is one of its order's end. -/
theorem CheckoutPhase.Rests.mem_events (hrests : phase.Rests s o)
    (hfinal : phase.sagaStatus ≠ .inProgress) (hI : CheckoutInv s) (hdb : Consistent s.db)
    {type : EventType} (h : Stored s type o) : type ∈ phase.events := by
  -- what the event tells is how some phase rests, and no two ends agree
  have hagree : ∀ phase' : CheckoutPhase, phase'.Rests s o → phase'.sagaStatus ≠ .inProgress →
      phase = phase' := fun _ h' hfinal' => h'.agree hrests hI hdb hfinal' hfinal
  cases h.tells hI with
  | created => cases phase <;> simp [CheckoutPhase.events]
  | reserved hreserved =>
    cases phase with
    | reserving => exact absurd rfl hfinal
    | unreserved => exact absurd rfl (hrests.ne_unreserved hreserved)
    | charging | completed | declined => simp [CheckoutPhase.events]
  | confirmed hplaced hauthorized | authorized hplaced hauthorized =>
    obtain rfl := hagree .completed ⟨_, _, _, hplaced, hauthorized⟩
      (by simp [CheckoutPhase.sagaStatus])
    simp [CheckoutPhase.events]
  | cancelled hfailed =>
    obtain hfailed | hdeclined := hfailed
    · obtain rfl := hagree .unreserved hfailed (by simp [CheckoutPhase.sagaStatus])
      simp [CheckoutPhase.events]
    · obtain rfl := hagree .declined hdeclined (by simp [CheckoutPhase.sagaStatus])
      simp [CheckoutPhase.events]
  | reservationFailed hfailed =>
    obtain rfl := hagree .unreserved hfailed (by simp [CheckoutPhase.sagaStatus])
    simp [CheckoutPhase.events]
  | declined hdeclined =>
    obtain rfl := hagree .declined hdeclined (by simp [CheckoutPhase.sagaStatus])
    simp [CheckoutPhase.events]

/-- The order's own stream has its creation and its end. -/
theorem ClosedStream.stored {rows : List (EventStoreRow .order)}
    (h : ClosedStream .order s.db o rows) (hI : CheckoutInv s) :
    Stored s .orderCreated o ∧ (Stored s .orderConfirmed o ∨ Stored s .orderCancelled o) := by
  obtain ⟨hrows, hne, hstatus⟩ := h
  cases hI.streams _ _ _ hrows with
  | nil => exact absurd rfl hne
  | created _ hevent =>
    rw [replay_one, hevent] at hstatus
    obtain h | h := hstatus <;> cases h
  | @confirmed _ _ _ _ _ _ r r' _ hevent _ _ hevent' =>
    exact ⟨⟨_, _, _, hrows, r, by simp, by rw [hevent]; rfl, by rw [hevent]; rfl⟩,
      .inl ⟨_, _, _, hrows, r', by simp, by rw [hevent']; rfl, by rw [hevent']; rfl⟩⟩
  | @cancelled _ _ _ _ r r' _ hevent _ hevent' =>
    exact ⟨⟨_, _, _, hrows, r, by simp, by rw [hevent]; rfl, by rw [hevent]; rfl⟩,
      .inr ⟨_, _, _, hrows, r', by simp, by rw [hevent']; rfl, by rw [hevent']; rfl⟩⟩

/-- **The events of a checkout that has ended.** -/
theorem CheckoutPhase.Rests.stored_iff (hrests : phase.Rests s o)
    (hfinal : phase.sagaStatus ≠ .inProgress) (hI : CheckoutInv s) (hdb : Consistent s.db)
    {rows : List (EventStoreRow .order)} (hclosed : ClosedStream .order s.db o rows)
    {type : EventType} : Stored s type o ↔ type ∈ phase.events := by
  refine ⟨hrests.mem_events hfinal hI hdb, fun hmem => ?_⟩
  obtain ⟨hcreated, hended⟩ := hclosed.stored hI
  -- which of its two ends the order's stream has, the phase says
  have hnever : ∀ {type}, type ∉ phase.events → ¬ Stored s type o :=
    fun hnot h => hnot (hrests.mem_events hfinal hI hdb h)
  cases phase with
  | reserving => exact absurd rfl hfinal
  | charging => exact absurd rfl hfinal
  | completed =>
    have hconfirmed := hended.resolve_right (hnever (by simp [CheckoutPhase.events]))
    obtain ⟨_, _, p, -, hauthorized⟩ := hrests
    obtain ⟨_, _, hreserved⟩ := (hauthorized.paymentOf hI).reserved hI
    obtain ⟨_, hauthorized⟩ := hauthorized
    simp only [CheckoutPhase.events, List.mem_cons, List.not_mem_nil, or_false] at hmem
    rcases hmem with rfl | rfl | rfl | rfl
    · exact hcreated
    · exact hreserved.stored rfl
    · exact hauthorized.stored rfl
    · exact hconfirmed
  | unreserved =>
    have hcancelled := hended.resolve_left (hnever (by simp [CheckoutPhase.events]))
    obtain ⟨_, _, hfailed⟩ := hrests
    simp only [CheckoutPhase.events, List.mem_cons, List.not_mem_nil, or_false] at hmem
    rcases hmem with rfl | rfl | rfl
    · exact hcreated
    · exact hfailed.stored rfl
    · exact hcancelled
  | declined =>
    have hcancelled := hended.resolve_left (hnever (by simp [CheckoutPhase.events]))
    obtain ⟨_, _, hpayment⟩ := Declined.declinedBy hrests hI
    obtain ⟨_, _, hreserved⟩ := hpayment.reserved hI
    obtain ⟨_, _, _, hdeclined⟩ := hrests
    simp only [CheckoutPhase.events, List.mem_cons, List.not_mem_nil, or_false] at hmem
    rcases hmem with rfl | rfl | rfl | rfl
    · exact hcreated
    · exact hreserved.stored rfl
    · exact hdeclined.stored rfl
    · exact hcancelled

end Rests

/-! ## At rest -/

/-- Every publish was confirmed. -/
theorem confirmed_of_reach {G : Guard} {s : State} (h : Reach promptSystem G s) {topic : Topic}
    {message : Message} (hpublished : Published s.shared topic message) :
    Confirmed s.shared topic message := by
  refine Protocol.invariant_of_took promptSystem_keeps (T := fun _ _ => True) (fun _ _ _ => trivial)
    (fun _ _ _ _ _ => trivial) (I := fun s => ∀ topic message, Published s topic message →
      Confirmed s topic message) (fun s hs => ?_) (fun t seen s s' hdb htook hI hstep => ?_) h
    topic message hpublished
  · exact fun topic message hpublished => absurd hpublished (not_published hs.2 topic message)
  · rintro topic message ⟨task, key, r, hmem⟩
    obtain hold | ⟨rfl, -, hs'⟩ := hstep.new_event hmem
    · obtain ⟨task', key', hconfirmed⟩ := hI topic message ⟨_, _, _, hold⟩
      exact ⟨task', key', (hstep.grows hdb).trace.subset hconfirmed⟩
    · obtain rfl : r = .ok () := htook.reply _ _ hs'
      exact ⟨task, key, hmem⟩

/-- The row that a stored event is audited as. -/
def EventStoreRow.auditRow {svc : Service} (r : EventStoreRow svc) (aggregateId : String) :
    AuditRow where
  eventType := (svc.eventType r.event).text
  aggregateId := some aggregateId
  correlationId := r.correlationId
  payload := (svc.payload r.event).json

section Quiet

variable {c : Checkout} {o : Uuid} {svc : Service} {id : String} {r : EventStoreRow svc}
  {rows : List (EventStoreRow svc)}

theorem CheckoutReach.oneCorrelationId (h : CheckoutReach c) (hdrawn : DrawnOnce c.shared) :
    OneCorrelationId c.shared :=
  (correlationInv_of_reach rfl (fun _ _ ht => ht) (fun _ hs => hs) h.reach).oneCorrelationId
    h.sound.consistent hdrawn

/-- At rest every event has been relayed. -/
theorem Quiet.relayed (hquiet : Quiet c) (h : CheckoutReach c)
    (hrows : HasStream svc c.shared.db id rows) (hr : r ∈ rows) :
    ∃ oid, Published c.shared svc.topic (relayedMessage oid (outboxRow svc id r)) := by
  obtain ⟨rows', oids, hrows', houtbox, -⟩ := h.sound.consistent.aggregate svc id
  obtain rfl := hrows.unique hrows'
  obtain ⟨k, hk, rfl⟩ := List.mem_iff_getElem.mp hr
  have hlt : k < oids.length := houtbox.each.length_eq ▸ hk
  have hrow : Store.row c.shared.db (.outbox svc oids[k]) = some (outboxRow svc id rows[k]) :=
    houtbox.each.get hlt hk
  have hpublishedAt := hquiet.outbox svc oids[k] (Option.isSome_iff_exists.mpr ⟨_, hrow⟩)
  obtain ⟨row, hrow', hpublished⟩ := (progressInv_of_reach h).outbox svc oids[k] hpublishedAt
  obtain rfl := Option.some.inj (hrow.symm.trans hrow')
  exact ⟨oids[k], hpublished⟩

/-- Only what is stored is relayed. -/
theorem CheckoutReach.stored (h : CheckoutReach c) {topic : Topic} {e : EventEnvelope}
    (hpublished : Published c.shared topic (.event e)) : ∃ svc rows,
      HasStream svc c.shared.db e.aggregateId rows ∧ ∃ r ∈ rows,
        e.type = svc.eventType r.event ∧ e.payload = svc.payload r.event ∧
          Message.auditRow (.event e) = r.auditRow e.aggregateId := by
  obtain ⟨svc, oid, row, hrow, heq⟩ := mem_eventsSaved.mp (h.relayedOnly topic e hpublished)
  obtain ⟨rows, hrows, r, hr, hsame⟩ := h.sound.consistent.outbox_event hrow
  obtain rfl := Message.event.inj heq
  rw [hsame] at hrows ⊢
  exact ⟨svc, rows, hrows, r, hr, rfl, rfl, rfl⟩

end Quiet

/-! ## What the audit log tells -/

section Told

variable {runtime : JsonRuntime} {c : Checkout} {log : KafkaLog} {a : AuditState} {o : Uuid}
  {topic : Topic} {message : Message}

/-- A confirmed message has a row, once the consumer has caught up. -/
theorem CaughtUp.row {s : Shared} (hcaught : CaughtUp log a)
    (ha : AuditRun runtime.toRuntime log .empty a) (hlog : BrokerLog runtime s log)
    (hparse : ReadsBack runtime s) (h : Confirmed s topic message) :
    ∃ key, ⟨key, message.auditRow⟩ ∈ a.auditLog := by
  obtain ⟨n, offset, hvalue⟩ := hlog.confirmed topic message h
  refine ⟨⟨⟨topic.text, n⟩, offset⟩, (AuditInv.empty.run ha).row_of_committed hparse h.published
    hvalue ?_⟩
  exact hcaught _ _ (subscribes_topic topic) (Option.isSome_iff_exists.mpr ⟨_, hvalue⟩)

/-- **What the rows of an order at rest are about.** -/
theorem Quiet.published_iff (hquiet : Quiet c) (h : CheckoutReach c) {phase : CheckoutPhase}
    {rows : List (EventStoreRow .order)} (hrests : phase.Rests c.shared o)
    (hfinal : phase.sagaStatus ≠ .inProgress) (hcreated : Asked c.shared .createOrder o)
    (hawaits : Asked c.shared phase.awaits o) (hclosed : ClosedStream .order c.shared.db o rows)
    {type : String} : (∃ topic message, Published c.shared topic message ∧ message.type = type ∧
      message.payload.orderId = some o) ↔ type ∈ phase.story := by
  have hI := h.sound.inv
  have hdb := h.sound.consistent
  unfold CheckoutPhase.story
  rw [List.mem_append, List.mem_map, List.mem_map]
  constructor
  · rintro ⟨topic, message, hpublished, rfl, ho⟩
    cases message with
    | command e =>
      exact .inl ⟨e.type, (hrests.asked_iff hfinal hI hdb hcreated hawaits).mp
        ⟨topic, e, hpublished, rfl, ho⟩, rfl⟩
    | event e =>
      obtain ⟨svc, rows, hrows, r, hr, htype, hpayload, -⟩ := h.stored hpublished
      have ho : (svc.payload r.event).orderId = some o := hpayload ▸ ho
      have hstored : Stored c.shared e.type o := ⟨svc, _, rows, hrows, r, hr, htype.symm, ho⟩
      exact .inr ⟨e.type, hrests.mem_events hfinal hI hdb hstored, rfl⟩
  · rintro (⟨type, hmem, rfl⟩ | ⟨type, hmem, rfl⟩)
    · obtain ⟨topic, e, hpublished, rfl, ho⟩ :=
        (hrests.asked_iff hfinal hI hdb hcreated hawaits).mpr hmem
      exact ⟨topic, .command e, hpublished, rfl, ho⟩
    · obtain ⟨svc, id, rows, hrows, r, hr, rfl, ho⟩ :=
        (hrests.stored_iff hfinal hI hdb hclosed).mpr hmem
      obtain ⟨oid, hpublished⟩ := hquiet.relayed h hrows hr
      exact ⟨_, _, hpublished, rfl, ho⟩

/-- The phase that all services show is where the saga stands. -/
theorem EndedAt.phase {s : Shared} {phase phase' : CheckoutPhase} {items : List OrderLineItem}
    {result : OrderStatusResult} {row : OrderProjectionRow} {saga : SagaInstanceRow}
    (h : EndedAt s o phase' items result row) (hsaga : sagaRow s o = some saga)
    (hstands : saga.Stands phase) : phase = phase' := by
  have hanswer := getOrderStatus_ok.mp h.status
  unfold SagasController.getStatus at hanswer
  rw [show Store.row s.db (.sagaInstance o) = some saga from hsaga] at hanswer
  have hhistory := h.shows.history
  rw [← Except.ok.inj hanswer] at hhistory
  have heq : phase.history = phase'.history := hstands.history.symm.trans hhistory
  cases phase <;> cases phase' <;> simp [CheckoutPhase.history] at heq ⊢

theorem orderId_of_read {p : Payload}
    (h : Json.read "orderId" (some p.json) = .ok (some (.str o))) : p.orderId = some o := by
  rw [(NotificationKafkaConsumer.read_payload p).2.1] at h
  obtain ⟨o', ho, heq⟩ := Option.map_eq_some_iff.mp (Except.ok.inj h)
  rw [ho, Json.str.inj heq]

end Told

section Unfillable

instance (t : Task) : Decidable t.IsRequest :=
  match t with
  | .createOrder _ _ _ => .isTrue trivial
  | .command _ _ | .event _ | .relay _ _ => .isFalse id

theorem reach_afterUnfillable : CheckoutReach afterUnfillable :=
  CheckoutReach.handleAll (.start fun _ _ => rfl) unfillable (by decide +kernel)

theorem quiet_afterUnfillable : Quiet afterUnfillable :=
  quiet_of (by decide +kernel) (by decide +kernel)

theorem drawnOnce_afterUnfillable : DrawnOnce afterUnfillable.shared := by
  have hdraws : ∀ p ∈ draws afterUnfillable.shared, ∀ q ∈ draws afterUnfillable.shared,
      p.1.IsRequest → q.1.IsRequest → p.2 = q.2 → p.1 = q.1 := by decide +kernel
  intro t t' id ht ht' h h'
  exact hdraws _ (mem_draws h) _ (mem_draws h') ht ht' rfl

theorem readsBack_afterUnfillable : ReadsBack utf8Runtime afterUnfillable.shared :=
  readsBack_jsonRuntime utf8Runtime_toText (by decide +kernel)

theorem storable_afterUnfillable :
    ∀ p ∈ publications afterUnfillable.shared, p.2.auditRow.Storable := by
  decide +kernel

end Unfillable

/-- **By aggregate, the audit log has exactly the events of the event stores**,
once all is relayed and consumed. -/
theorem auditedStreams (runtime : JsonRuntime) (c : Checkout) (h : CheckoutReach c)
    (hquiet : Quiet c) (hparse : ReadsBack runtime c.shared) (log : KafkaLog)
    (hlog : BrokerLog runtime c.shared log) (a : AuditState)
    (ha : AuditRun runtime.toRuntime log .empty a) (hcaught : CaughtUp log a)
    (consumedAt : AuditKey → ℕ) (id : String) (row : AuditRow) :
    (∃ key, ⟨key, row⟩ ∈ AuditLogRepository.findByAggregateId consumedAt a.auditLog id) ↔
      ∃ svc rows, HasStream svc c.shared.db id rows ∧
        ∃ r ∈ rows, row = EventStoreRow.auditRow r id := by
  constructor
  · rintro ⟨key, hrow⟩
    obtain ⟨hmem, hid⟩ := AuditLogRepository.mem_findByAggregateId.mp hrow
    obtain ⟨topic, message, -, hpublished, rfl⟩ := (AuditInv.empty.run ha).message hlog hparse hmem
    cases message with
    | command e => cases hid
    | event e =>
      obtain ⟨svc, rows, hrows, r, hr, -, -, hsame⟩ := h.stored hpublished
      obtain rfl : e.aggregateId = id := Option.some.inj hid
      exact ⟨svc, rows, hrows, r, hr, hsame⟩
  · rintro ⟨svc, rows, hrows, r, hr, rfl⟩
    obtain ⟨oid, hpublished⟩ := hquiet.relayed h hrows hr
    obtain ⟨key, hmem⟩ := hcaught.row ha hlog hparse (confirmed_of_reach h.reach hpublished)
    exact ⟨key, AuditLogRepository.mem_findByAggregateId.mpr ⟨hmem, rfl⟩⟩

/-- The reservation that failed is found by the order's id. -/
theorem auditedStreams_unfillable : ∃ (a : AuditState) (row : AuditRow),
    row.eventType = "inventory.reservation_failed.v1" ∧ ∃ key, ⟨key, row⟩ ∈
      AuditLogRepository.findByAggregateId AuditKey.offset a.auditLog (uuidOf 0) := by
  obtain ⟨log, a, hlog, hrun, hcaught⟩ := exists_audited readsBack_afterUnfillable
    storable_afterUnfillable
  obtain ⟨rows, hrows⟩ := reach_afterUnfillable.sound.consistent.stream .inventory (uuidOf 0)
  have hstored : (Store.row afterUnfillable.shared.db (.eventStore .inventory (uuidOf 0) 1)).map
      (fun r : EventStoreRow .inventory => (Service.inventory.eventType r.event).text) =
      some "inventory.reservation_failed.v1" := by decide +kernel
  obtain ⟨r, hr, htype⟩ := Option.map_eq_some_iff.mp hstored
  exact ⟨a, r.auditRow (uuidOf 0), htype, (auditedStreams utf8Runtime afterUnfillable
    reach_afterUnfillable quiet_afterUnfillable readsBack_afterUnfillable log hlog a hrun hcaught
    AuditKey.offset (uuidOf 0) _).mpr ⟨.inventory, rows, hrows, r, hrows.mem_of_row hr, rfl⟩⟩

/-- **The story of a checkout**: at rest, the trail of its correlation id shows
of the order exactly the commands and events of the way it ended. -/
theorem auditStory (runtime : JsonRuntime) (c : Checkout) (h : CheckoutReach c)
    (hquiet : Quiet c) (hdrawn : DrawnOnce c.shared) (hparse : ReadsBack runtime c.shared)
    (log : KafkaLog) (hlog : BrokerLog runtime c.shared log) (a : AuditState)
    (ha : AuditRun runtime.toRuntime log .empty a) (hcaught : CaughtUp log a)
    (consumedAt : AuditKey → ℕ) (o : Uuid) (hasked : Asked c.shared .createOrder o) :
    ∃ correlationId phase items result row, IsCorrelationId c.shared o correlationId ∧
      EndedAt c.shared o phase items result row ∧ ∀ type,
        (∃ key row, ⟨key, row⟩ ∈
            AuditLogRepository.findByCorrelationId consumedAt a.auditLog correlationId ∧
          row.eventType = type ∧
          Json.read "orderId" (some row.payload) = .ok (some (.str o))) ↔ type ∈ phase.story := by
  have hone := h.oneCorrelationId hdrawn
  obtain ⟨topic, e, hpublished, htype, ho⟩ := hasked
  have hasked : Asked c.shared .createOrder o := ⟨topic, e, hpublished, htype, ho⟩
  obtain ⟨o', ho', hid⟩ := hone.commands topic e hpublished
  obtain rfl := Option.some.inj (ho.symm.trans ho')
  obtain ⟨saga, phase, rows, hsaga, hstands, hrests, hfinal, hclosed⟩ := hquiet.ended h hasked
  obtain ⟨phase', items, result, row, hended⟩ := hquiet.endedAt h hdrawn hasked
  obtain rfl : phase = phase' := hended.phase hsaga hstands
  have hawaits : Asked c.shared phase.awaits o := by
    rw [← hstands.awaits]
    exact (progressInv_of_reach h).sagas.awaited o saga hsaga
  refine ⟨e.correlationId, phase, items, result, row, hid, hended, fun type => ?_⟩
  rw [← hquiet.published_iff h hrests hfinal hasked hawaits hclosed]
  constructor
  · rintro ⟨key, row, hrow, htype, horder⟩
    obtain ⟨hmem, -⟩ := AuditLogRepository.mem_findByCorrelationId.mp hrow
    obtain ⟨topic, message, -, hpublished, rfl⟩ := (AuditInv.empty.run ha).message hlog hparse hmem
    exact ⟨topic, message, hpublished, htype, orderId_of_read horder⟩
  · rintro ⟨topic, message, hpublished, htype, horder⟩
    obtain ⟨key, hmem⟩ := hcaught.row ha hlog hparse (confirmed_of_reach h.reach hpublished)
    refine ⟨key, _, AuditLogRepository.mem_findByCorrelationId.mpr ⟨hmem, ?_⟩, htype, ?_⟩
    · exact hid.of_carries horder (hone.carries hpublished)
    · show Json.read "orderId" (some message.payload.json) = _
      rw [(NotificationKafkaConsumer.read_payload message.payload).2.1, horder]
      rfl

/-- The story of what could not be reserved. -/
theorem auditStory_unfillable : ∃ (log : KafkaLog) (a : AuditState) (correlationId : String)
    (phase : CheckoutPhase), CaughtUp log a ∧ ∀ type,
      (∃ key row, ⟨key, row⟩ ∈
          AuditLogRepository.findByCorrelationId AuditKey.offset a.auditLog correlationId ∧
        row.eventType = type ∧
        Json.read "orderId" (some row.payload) = .ok (some (.str (uuidOf 0)))) ↔
      type ∈ phase.story := by
  obtain ⟨log, a, hlog, hrun, hcaught⟩ := exists_audited readsBack_afterUnfillable
    storable_afterUnfillable
  have hasked : Asked afterUnfillable.shared .createOrder (uuidOf 0) :=
    (asked_iff reach_afterUnfillable.sound.prompt).mpr (mem_ordersRequested.mp (by decide +kernel))
  obtain ⟨correlationId, phase, _, _, _, -, -, hstory⟩ := auditStory utf8Runtime
    afterUnfillable reach_afterUnfillable quiet_afterUnfillable drawnOnce_afterUnfillable
    readsBack_afterUnfillable log hlog a hrun hcaught AuditKey.offset (uuidOf 0) hasked
  exact ⟨log, a, correlationId, phase, hcaught, hstory⟩

end Saganova
