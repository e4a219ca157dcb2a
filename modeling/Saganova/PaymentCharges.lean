import Saganova.ServiceConsistency

/-!
# A charge is made once and is what is recorded

Any number of deliveries of AuthorizePayment, on any number of replicas, with
crashes and failing commits between the gateway's answer and the save.  The
gateway answers the same to the same key; the unique index on
`payment_projection.orderId` lets one payment of an order commit, and a delivery
is acknowledged only once that payment is there (`chargedOnce`).
-/

namespace Saganova

open Concurrency

/-! ## The payment service with a gateway -/

/-- A call may be answered with an error, whether it reached the provider or
not, or with what the provider has for its key. -/
def GatewayReplies (gateway : String → AuthorizeResult) : (a : Act) → Act.Reply a → Prop
  | .authorize params, (reply : AuthorizeReply) =>
    ∀ result, reply.answer = .ok result →
      reply.reached = true ∧ result = gateway params.idempotencyKey
  | _, _ => True

/-- A delivery of AuthorizePayment, with the amount commanded for its order. -/
def IsCharge (commanded : Uuid → Num) (t : Task) : Prop :=
  ∃ r, t = .command .payment r ∧ r.value.type = .authorizePayment ∧
    ∀ command, IsAuthorizePayment r.value command →
      command.amountCents = commanded command.orderId

def chargeSystem (gateway : String → AuthorizeResult) (commanded : Uuid → Num) : System where
  code := code
  start := fun s => Fresh s.db ∧ s.trace = []
  spawn := fun _ t => IsCharge commanded t
  reply := fun _ _ => GatewayReplies gateway
  fault := databaseFault

section Charge

variable {gateway : String → AuthorizeResult} {commanded : Uuid → Num} {G : Guard}

theorem chargeSystem_keeps : (chargeSystem gateway commanded).Keeps serviceProtocol G :=
  keepsServiceProtocol rfl fun _ h => h.1.consistent

/-- The gateway charged the order: a call with its key reached the provider, which accepts it. -/
def Charged (gateway : String → AuthorizeResult) (s : Shared) (o : Uuid) : Prop :=
  (gateway (idempotencyKey o)).success = true ∧ ∃ t params reply,
    Event.acted t (.authorize params) reply ∈ s.trace ∧
      params.idempotencyKey = idempotencyKey o ∧ reply.reached = true

/-- The stream is the record of the gateway's answer for the order, which was asked. -/
def RecordsAnswer (gateway : String → AuthorizeResult) (commanded : Uuid → Num) (s : Shared)
    (p : Uuid) (rows : List (EventStoreRow .payment)) : Prop :=
  ∃ command t time reply,
    rows = [eventRow .payment (AuthorizePaymentHandler.event command p
      (gateway (idempotencyKey command.orderId))) time command.correlationId] ∧
    command.amountCents = commanded command.orderId ∧
    Event.acted t (.authorize (AuthorizePaymentHandler.params command)) reply ∈ s.trace ∧
    reply.reached = true

/-- The offset after the record was committed by its own handler. -/
def Acknowledged (s : Shared) (r : Record CommandEnvelope) : Prop :=
  Event.acted (.command .payment r) (.commitOffsets r.topic r.partition (r.offset + 1)) (.ok ()) ∈
    s.trace

structure ChargeInv (gateway : String → AuthorizeResult) (commanded : Uuid → Num) (s : Shared) :
    Prop where
  replies : ∀ t a res, Event.acted t a res ∈ s.trace →
    IsCharge commanded t ∧ GatewayReplies gateway a res
  streams : ∀ p rows, HasStream .payment s.db p rows →
    rows = [] ∨ RecordsAnswer gateway commanded s p rows
  acknowledged : ∀ r command, Acknowledged s r → IsAuthorizePayment r.value command →
    (Store.row s.db (.paymentOfOrder command.orderId)).isSome

theorem RecordsAnswer.grow {s s' : Shared} {p : Uuid} {rows : List (EventStoreRow .payment)}
    (h : RecordsAnswer gateway commanded s p rows) (htrace : s.trace <:+ s'.trace) :
    RecordsAnswer gateway commanded s' p rows := by
  obtain ⟨command, t, time, reply, hrows, hamount, hcalled, hreached⟩ := h
  exact ⟨command, t, time, reply, hrows, hamount, htrace.subset hcalled, hreached⟩

theorem ChargeInv.start {s : Shared} (hfresh : Fresh s.db) (htrace : s.trace = []) :
    ChargeInv gateway commanded s where
  replies := by
    intro t a res h
    rw [htrace] at h
    cases h
  streams := by
    intro p rows h
    exact .inl (hfresh.stream_nil h)
  acknowledged := by
    intro r command h
    unfold Acknowledged at h
    rw [htrace] at h
    cases h

/-- What is new in the trace of a step was done by its task. -/
theorem ServiceStep.new_event {t t' : Task} {seen : Db} {s s' : Shared} {a : Act}
    {res : Act.Reply a} (h : ServiceStep t seen s s') (hnew : Event.acted t' a res ∈ s'.trace) :
    Event.acted t' a res ∈ s.trace ∨ t' = t ∧ Allowed s seen t a ∧ s' = s.acted t a res := by
  cases h with
  | acted a' res' hallowed =>
    rcases List.mem_cons.mp hnew with heq | hold
    · cases heq
      exact .inr ⟨rfl, hallowed, rfl⟩
    · exact .inl hold
  | appended w _ _ _ _ =>
    rcases List.mem_cons.mp hnew with heq | hold
    · cases heq
    · exact .inl hold
  | sagaSaved row _ _ _ =>
    rcases List.mem_cons.mp hnew with heq | hold
    · cases heq
    · exact .inl hold

/-- **Every step keeps the invariant.** -/
theorem ChargeInv.step {t : Task} {seen : Db} {s s' : Shared}
    (hI : ChargeInv gateway commanded s) (hdb : Consistent s.db)
    (htook : (chargeSystem gateway commanded).Took G (fun _ => IsCharge commanded) t s s')
    (h : ServiceStep t seen s s') : ChargeInv gateway commanded s' := by
  have hgrow := h.grows hdb
  constructor
  · intro t' a res hnew
    rcases h.new_event hnew with hold | ⟨rfl, -, heq⟩
    · exact hI.replies t' a res hold
    · exact ⟨htook.task, htook.reply a res heq⟩
  · intro p rows hrows
    rcases h.stream_before hrows with hold | ⟨rows', r, -, rfl, happ⟩
    · exact (hI.streams p rows hold).imp id fun hrec => hrec.grow hgrow.trace
    · right
      obtain ⟨r₀, ht, htype, hamount⟩ := htook.task
      cases happ with
      | @charged r command _ reply result time hcommand hanswer hcalled =>
        cases ht
        obtain ⟨hreached, hresult⟩ := (hI.replies _ _ _ hcalled).2 result hanswer
        refine ⟨command, _, time, reply, ?_, hamount command hcommand,
          hgrow.trace.subset hcalled, hreached⟩
        rw [hresult]
        rfl
      | refunded hrefund _ _ _ =>
        cases ht
        rw [htype] at hrefund
        cases hrefund
  · intro r command hack hcommand
    rcases h.new_event hack with hold | ⟨rfl, hallowed, rfl⟩
    · obtain ⟨p, hindex⟩ := Option.isSome_iff_exists.mp (hI.acknowledged r command hold hcommand)
      exact Option.isSome_iff_exists.mpr ⟨p, hgrow.index hindex⟩
    · exact (hallowed r rfl).2 command hcommand

theorem chargeInv_of_reach {s : State} (h : Reach (chargeSystem gateway commanded) G s) :
    ChargeInv gateway commanded s.shared :=
  Protocol.invariant_of_took chargeSystem_keeps (T := fun _ => IsCharge commanded)
    (fun _ _ hspawn => hspawn) (fun _ _ _ _ ht => ht) (fun _ hs => .start hs.1 hs.2)
    (fun _ _ _ _ hinv htook hI hguar => hI.step hinv htook hguar) h

/-! ## One payment for an order -/

/-- The payment `p` has events, and is about the order. -/
def PaymentOf (db : Db) (o p : Uuid) : Prop :=
  ∃ rows, HasStream .payment db p rows ∧ rows ≠ [] ∧ (replay .payment rows).orderId = o

/-- The index has the one payment of an order. -/
theorem paymentOf_iff {db : Db} (hdb : Consistent db) {o p : Uuid} :
    PaymentOf db o p ↔ Store.row db (.paymentOfOrder o) = some p := by
  constructor
  · rintro ⟨rows, hrows, hne, ho⟩
    obtain ⟨row, hrow, horder, -⟩ := (hdb.projected hrows).some_of_ne hne
    exact (hdb.index o p).mpr ⟨row, hrow, horder.trans ho⟩
  · intro hindex
    obtain ⟨row, hrow, ho⟩ := (hdb.index o p).mp hindex
    obtain ⟨rows, hrows⟩ := hdb.stream .payment p
    have hproj := hdb.projected hrows
    have hne : rows ≠ [] := by
      intro hnil
      rw [hproj.none_of_nil hnil] at hrow
      cases hrow
    obtain ⟨row', hrow', horder, -⟩ := hproj.some_of_ne hne
    cases hrow.symm.trans hrow'
    exact ⟨rows, hrows, hne, horder.symm.trans ho⟩

/-- The order that an authorization or a decline is about. -/
def PaymentEvent.outcomeOrder : PaymentEvent → Option Uuid
  | .paymentAuthorized p => some p.orderId
  | .paymentDeclined p => some p.orderId
  | .paymentRefunded _ => none

/-- The row announces an authorization or a decline for the order. -/
def OutboxRow.AnnouncesOutcome (row : OutboxRow) (o : Uuid) : Prop :=
  (row.eventType = .paymentAuthorized ∨ row.eventType = .paymentDeclined) ∧
    row.payload.orderId = some o

section Record

variable {s : Shared} {p o : Uuid} {rows : List (EventStoreRow .payment)}

/-- A recorded answer is one event, and the payment is about the order asked for. -/
theorem RecordsAnswer.cases (h : RecordsAnswer gateway commanded s p rows) :
    ∃ row command, rows = [row] ∧ row.event.outcomeOrder = some command.orderId ∧
      (replay .payment rows).orderId = command.orderId ∧
      row.event = AuthorizePaymentHandler.event command p
        (gateway (idempotencyKey command.orderId)) := by
  obtain ⟨command, t, time, reply, rfl, -, -, -⟩ := h
  refine ⟨_, command, rfl, ?_, ?_, rfl⟩
  · unfold AuthorizePaymentHandler.event eventRow
    split <;> rfl
  · exact event_orderId command p _ _

/-- An authorization or a decline is the only event of its payment, which is the order's. -/
theorem paymentOf_of_event (hI : ChargeInv gateway commanded s) (hdb : Consistent s.db) {k : ℕ}
    {row : EventStoreRow .payment} (hrow : Store.row s.db (.eventStore .payment p k) = some row)
    (ho : row.event.outcomeOrder = some o) : PaymentOf s.db o p ∧ k = 1 := by
  obtain ⟨rows, hrows⟩ := hdb.stream .payment p
  cases k with
  | zero =>
    rw [hrows.1] at hrow
    cases hrow
  | succ k =>
    rw [hrows.2] at hrow
    rcases hI.streams p rows hrows with rfl | hrecords
    · cases hrow
    · obtain ⟨row', command, rfl, horder, hreplay, -⟩ := hrecords.cases
      obtain ⟨hk, hlast⟩ := List.getElem?_eq_some_iff.mp hrow
      have hzero : k = 0 := by simpa using hk
      subst hzero
      cases hlast
      cases horder.symm.trans ho
      exact ⟨⟨_, hrows, by simp, hreplay⟩, rfl⟩

/-- An outbox row that announces an outcome is the only one of its payment, which
is the order's. -/
theorem paymentOf_of_outbox (hI : ChargeInv gateway commanded s) (hdb : Consistent s.db) {oid : Uuid}
    {row : OutboxRow} (hrow : Store.row s.db (.outbox .payment oid) = some row)
    (ho : row.AnnouncesOutcome o) : PaymentOf s.db o row.aggregateId ∧
      ∀ oid' (row' : OutboxRow), Store.row s.db (.outbox .payment oid') = some row' →
        row'.aggregateId = row.aggregateId → oid' = oid := by
  obtain ⟨rows, oids, hrows, houtbox, -⟩ := hdb.aggregate .payment row.aggregateId
  have hmem := houtbox.only oid row hrow rfl
  rcases hI.streams _ rows hrows with rfl | hrecords
  · cases houtbox.each
    cases hmem
  · obtain ⟨row', command, rfl, horder, hreplay, hevent⟩ := hrecords.cases
    obtain ⟨oid₀, rfl⟩ : ∃ oid₀, oids = [oid₀] := by
      have hlen := houtbox.each.length_eq
      exact List.length_eq_one_iff.mp hlen
    have hoid : oid = oid₀ := List.mem_singleton.mp hmem
    subst hoid
    obtain ⟨hsame, -⟩ := List.forall₂_cons.mp houtbox.each
    have hrow_eq : row = outboxRow .payment row.aggregateId row' :=
      Option.some.inj (hrow.symm.trans hsame)
    refine ⟨⟨_, hrows, by simp, ?_⟩, fun oid' row'' hrow' haggregate => ?_⟩
    · rw [hreplay]
      have hpayload := ho.2
      rw [hrow_eq, outboxRow, hevent] at hpayload
      unfold AuthorizePaymentHandler.event at hpayload
      split at hpayload <;> exact Option.some.inj hpayload
    · exact List.mem_singleton.mp (houtbox.only oid' row'' hrow' haggregate)

/-- The recorded payment is AUTHORIZED, as the gateway and the command say,
exactly where the gateway charged. -/
theorem RecordsAnswer.authorized_iff (h : RecordsAnswer gateway commanded s p rows)
    (ho : (replay .payment rows).orderId = o) :
    ((replay .payment rows).status = .authorized ∧
      (replay .payment rows).pspReference = (gateway (idempotencyKey o)).pspReference ∧
      (replay .payment rows).amountCents = commanded o) ↔ Charged gateway s o := by
  obtain ⟨command, t, time, reply, rfl, hamount, hcalled, hreached⟩ := h
  have horder : command.orderId = o := (event_orderId command p _ _).symm.trans ho
  subst horder
  show (PaymentAggregate.when _ (AuthorizePaymentHandler.event command p _)).status = _ ∧
    (PaymentAggregate.when _ (AuthorizePaymentHandler.event command p _)).pspReference = _ ∧
    (PaymentAggregate.when _ (AuthorizePaymentHandler.event command p _)).amountCents = _ ↔ _
  unfold AuthorizePaymentHandler.event
  by_cases hsuccess : (gateway (idempotencyKey command.orderId)).success = true
  · rw [if_pos hsuccess]
    exact ⟨fun _ => ⟨hsuccess, t, _, reply, hcalled, rfl, hreached⟩,
      fun _ => ⟨rfl, rfl, hamount⟩⟩
  · rw [if_neg hsuccess]
    constructor
    · rintro ⟨hstatus, -, -⟩
      cases hstatus
    · intro hcharged
      exact absurd hcharged.1 hsuccess

end Record

/-- One payment of the order, one event and one outbox row of its outcome; once
a delivery is acknowledged, the payment is AUTHORIZED exactly where the gateway charged. -/
structure ChargedOnce (gateway : String → AuthorizeResult) (s : Shared) (o : Uuid) : Prop where
  payment : ∀ p p', PaymentOf s.db o p → PaymentOf s.db o p' → p = p'
  event : ∀ p k p' k' (row row' : EventStoreRow .payment),
    Store.row s.db (.eventStore .payment p k) = some row →
    Store.row s.db (.eventStore .payment p' k') = some row' →
    row.event.outcomeOrder = some o → row'.event.outcomeOrder = some o → p = p' ∧ k = k'
  outbox : ∀ oid oid' (row row' : OutboxRow), Store.row s.db (.outbox .payment oid) = some row →
    Store.row s.db (.outbox .payment oid') = some row' →
    row.AnnouncesOutcome o → row'.AnnouncesOutcome o → oid = oid'
  recorded : ∀ r command, IsAuthorizePayment r.value command → command.orderId = o →
    Acknowledged s r → ∃ p rows, HasStream .payment s.db p rows ∧ rows ≠ [] ∧
      (replay .payment rows).orderId = o ∧
      (((replay .payment rows).status = .authorized ∧
        (replay .payment rows).pspReference = (gateway (idempotencyKey o)).pspReference ∧
        (replay .payment rows).amountCents = command.amountCents) ↔ Charged gateway s o)

/-- **A charge is made once and is what is recorded.** -/
theorem chargedOnce (gateway : String → AuthorizeResult) (commanded : Uuid → Num) (s : LockState)
    (h : LockReach (chargeSystem gateway commanded) anything s) (o : Uuid) :
    ChargedOnce gateway s.base.shared o := by
  have hreach := h.atomic.2
  have hdb : Consistent s.base.shared.db := (Protocol.sound chargeSystem_keeps hreach).inv
  have hI := chargeInv_of_reach hreach
  have hone : ∀ p p', PaymentOf s.base.shared.db o p → PaymentOf s.base.shared.db o p' → p = p' := by
    intro p p' hp hp'
    have hindex := (paymentOf_iff hdb).mp hp
    rw [(paymentOf_iff hdb).mp hp'] at hindex
    exact (Option.some.inj hindex).symm
  refine ⟨hone, ?_, ?_, ?_⟩
  · intro p k p' k' row row' hrow hrow' ho ho'
    obtain ⟨hp, hk⟩ := paymentOf_of_event hI hdb hrow ho
    obtain ⟨hp', hk'⟩ := paymentOf_of_event hI hdb hrow' ho'
    exact ⟨hone p p' hp hp', hk.trans hk'.symm⟩
  · intro oid oid' row row' hrow hrow' ho ho'
    obtain ⟨hp, honly⟩ := paymentOf_of_outbox hI hdb hrow ho
    obtain ⟨hp', -⟩ := paymentOf_of_outbox hI hdb hrow' ho'
    exact (honly oid' row' hrow' (hone _ _ hp' hp)).symm
  · intro r command hcommand horder hack
    obtain ⟨r', ht, -, hasked⟩ := (hI.replies _ _ _ hack).1
    cases ht
    have hamount := hasked command hcommand
    obtain ⟨p, hindex⟩ := Option.isSome_iff_exists.mp (hI.acknowledged r command hack hcommand)
    rw [horder] at hindex
    obtain ⟨rows, hrows, hne, ho⟩ := (paymentOf_iff hdb).mpr hindex
    refine ⟨p, rows, hrows, hne, ho, ?_⟩
    rw [hamount, horder]
    exact ((hI.streams p rows hrows).resolve_left hne).authorized_iff ho

end Charge

/-! ## A redelivery after a crash -/

/-- Every key is accepted. -/
def accepting : String → AuthorizeResult := fun _ => { success := true, pspReference := some "psp" }

def chargeRecord : Record CommandEnvelope :=
  commandRecord 0 .authorizePayment
    { orderId := some order₁, customerId := some customer₁, amountCents := some 500 }

theorem gatewayReplies_allWell (k : ℕ) (a : Act) : GatewayReplies accepting a (allWell k a) := by
  cases a with
  | authorize params =>
    intro result hresult
    cases hresult
    exact ⟨rfl, rfl⟩
  | _ => trivial

/-- The first handler crashes between the gateway's answer and its save; the
redelivery is acknowledged. -/
theorem chargedOnce_redelivered : ∃ s : LockState, Acknowledged s.base.shared chargeRecord ∧
    ChargedOnce accepting s.base.shared order₁ := by
  have hspawn : ∀ s, (chargeSystem accepting fun _ => 500).spawn s (.command .payment chargeRecord) := by
    intro s
    refine ⟨chargeRecord, rfl, rfl, fun command hcommand => ?_⟩
    exact (Option.some.inj hcommand.amountCents).symm
  have hanswer : ∀ (s : Shared) a, GatewayReplies accepting a (allWell s.trace.length a) :=
    fun s a => gatewayReplies_allWell _ a
  have hcrash := (Reach.start (S := chargeSystem accepting fun _ => 500) (G := anything)
    (s := ⟨[], []⟩) ⟨fun _ _ => rfl, rfl⟩).crash (hspawn _) hanswer 3
  have hend := hcrash.run (hspawn _) hanswer
  refine ⟨_, ?_, chargedOnce accepting (fun _ => 500) _ hend.withLocks order₁⟩
  exact List.mem_of_getElem? (i := 0) (by rfl)

end Saganova
