import Saganova.CorrelationIds

/-!
# Whom the gateway charges

The calls of the gateway's `authorize` in the composed system.  A saga keeps
the customer of its order, and hands it to the command that charges it; so each
call is for an order that was placed, in the name of its customer, and each
payment is the record of such a call (`CallInv`).
-/

namespace Saganova

open Concurrency Decision

/-! ## Calls -/

structure GatewayCall where
  params : AuthorizeParams
  reply : AuthorizeReply

def callOf : Event Row Act.Reply Task → Option GatewayCall
  | .acted _ (.authorize params) reply => some ⟨params, reply⟩
  | _ => none

/-- The calls of `authorize`, newest first. -/
def gatewayCalls (s : Shared) : List GatewayCall := s.trace.filterMap callOf

theorem mem_gatewayCalls {s : Shared} {call : GatewayCall} : call ∈ gatewayCalls s ↔
    ∃ t, Event.acted t (.authorize call.params) call.reply ∈ s.trace := by
  unfold gatewayCalls
  rw [List.mem_filterMap]
  constructor
  · rintro ⟨event, hmem, hsome⟩
    unfold callOf at hsome
    split at hsome
    · rename_i t params reply
      obtain rfl := Option.some.inj hsome
      exact ⟨t, hmem⟩
    · cases hsome
  · rintro ⟨t, hmem⟩
    exact ⟨_, hmem, rfl⟩

/-! ## Whose order it is -/

/-- The order was placed by the customer. -/
def PlacedBy (s : Shared) (o customerId : Uuid) : Prop := ∃ items, Placed s o customerId items

/-- The call is for an order, for its total and in its customer's name. -/
structure CallOk (s : Shared) (params : AuthorizeParams) : Prop where
  customer : PlacedBy s params.orderId params.customerId
  amount : ∃ customerId items, Placed s params.orderId customerId items ∧
    params.amountCents = OrderAggregate.totalCents items
  key : params.idempotencyKey = idempotencyKey params.orderId

/-- The payment's event is the record of a call. -/
def RecordsCall (s : Shared) (p : Uuid) (event : PaymentEvent) : Prop :=
  ∃ command reply result, ⟨AuthorizePaymentHandler.params command, reply⟩ ∈ gatewayCalls s ∧
    reply.answer = .ok result ∧ event = AuthorizePaymentHandler.event command p result

/-- Contexts, commands and calls name the customer who placed the order, and
payments are records of calls. -/
structure CallInv (s : Shared) : Prop where
  rows : ∀ o row, Store.row s.db (.sagaInstance o) = some row →
    ∃ customerId, row.context.customerId = some customerId ∧ PlacedBy s o customerId
  commands : ∀ topic c, Published s topic (.command c) → c.type = .authorizePayment →
    ∃ o customerId, c.payload.orderId = some o ∧ c.payload.customerId = some customerId ∧
      PlacedBy s o customerId
  calls : ∀ call ∈ gatewayCalls s, CallOk s call.params
  streams : ∀ p rows, HasStream .payment s.db p rows → ∀ r ∈ rows, RecordsCall s p r.event

structure CallJob (s : Shared) (t : Task) (seen : Db) : Prop where
  delivered : Delivered s t
  seen : ∀ o row, Store.row seen (.sagaInstance o) = some row →
    ∃ customerId, row.context.customerId = some customerId ∧ PlacedBy s o customerId

section Grow

variable {s s' : Shared} {o customerId : Uuid}

theorem PlacedBy.grow (h : PlacedBy s o customerId) (hgrow : Grows s s') :
    PlacedBy s' o customerId := h.imp fun _ h => h.grow hgrow

theorem CallOk.grow {params : AuthorizeParams} (h : CallOk s params) (hgrow : Grows s s') :
    CallOk s' params where
  customer := h.customer.grow hgrow
  amount := by
    obtain ⟨customerId, items, hplaced, hamount⟩ := h.amount
    exact ⟨customerId, items, hplaced.grow hgrow, hamount⟩
  key := h.key

theorem gatewayCalls_subset (hgrow : Grows s s') : gatewayCalls s ⊆ gatewayCalls s' := by
  intro call hcall
  obtain ⟨t, hmem⟩ := mem_gatewayCalls.mp hcall
  exact mem_gatewayCalls.mpr ⟨t, hgrow.trace.subset hmem⟩

theorem RecordsCall.grow {p : Uuid} {event : PaymentEvent} (h : RecordsCall s p event)
    (hgrow : Grows s s') : RecordsCall s' p event := by
  obtain ⟨command, reply, result, hcall, hrest⟩ := h
  exact ⟨command, reply, result, gatewayCalls_subset hgrow hcall, hrest⟩

theorem CallJob.grow {t : Task} {seen : Db} (h : CallJob s t seen) (hgrow : Grows s s') :
    CallJob s' t seen where
  delivered := h.delivered.grow hgrow
  seen o row hrow := by
    obtain ⟨customerId, hcontext, hplaced⟩ := h.seen o row hrow
    exact ⟨customerId, hcontext, hplaced.grow hgrow⟩

end Grow

/-! ## Every step -/

section Step

variable {t : Task} {seen : Db} {s s' : Shared} {o : Uuid}

/-- Only ORDER_CREATED names a customer. -/
theorem Announced.customerId {type : EventType} {payload : Payload} (h : Announced s type payload)
    (hne : type ≠ .orderCreated) : payload.customerId = none := by
  cases h with
  | orderCreated _ => exact absurd rfl hne
  | _ => rfl

/-- The context that a decision on an event leaves, and what it charges with. -/
theorem decideEvent_context (old : SagaInstanceRow) (type : EventType) {payload : Payload}
    (correlationId : String) (hnone : payload.customerId = none) :
    (∀ row, (decideEvent (some old) type payload).Writes correlationId row →
      row.context.customerId = old.context.customerId) ∧
    ∀ c, (decideEvent (some old) type payload).Publishes correlationId c →
      c.type = .authorizePayment → c.payload.customerId = old.context.customerId := by
  have hspread : (old.context.spread payload).customerId = old.context.customerId := by
    show (payload.customerId <|> old.context.customerId) = _
    rw [hnone]
    rfl
  obtain hignore | ⟨e, hfail⟩ | ⟨r, hr, hcases⟩ := decideEvent_cases (some old) type payload
  · rw [hignore]
    exact ⟨fun _ h => h.elim, fun _ h => h.elim⟩
  · rw [hfail]
    exact ⟨fun _ h => h.elim, fun _ h => h.elim⟩
  obtain rfl := Option.some.inj hr
  obtain hresave | ⟨-, hadvance⟩ | ⟨-, hcomplete⟩ | ⟨-, step, hcancel⟩ := hcases
  · rw [hresave]
    refine ⟨?_, fun _ h => h.elim⟩
    rintro row rfl
    rfl
  · rw [hadvance]
    constructor
    · rintro row ⟨time, rfl⟩
      exact hspread
    · rintro c ⟨-, -, hpayload⟩ -
      rw [hpayload]
      exact hspread
  · rw [hcomplete]
    constructor
    · rintro row ⟨time, rfl⟩
      exact hspread
    · rintro c ⟨-, htype, -⟩ htype'
      cases htype'.symm.trans htype
  · rw [hcancel]
    constructor
    · rintro row ⟨time, rfl⟩
      exact hspread
    · rintro c ⟨-, htype, -⟩ htype'
      cases htype'.symm.trans htype

/-- What a delivery writes and publishes is in the name of the customer. -/
theorem customer_of_decision {r : Record EventEnvelope}
    {decision : Option SagaInstanceRow → Decision} (hjob : CallJob s (.event r) seen)
    (hI : CheckoutInv s) (hdec : decisionOf r.value = some (o, decision)) :
    (∀ row, (decision (Store.row seen (.sagaInstance o))).Writes r.value.correlationId row →
      ∃ customerId, row.context.customerId = some customerId ∧ PlacedBy s o customerId) ∧
    ∀ c, (decision (Store.row seen (.sagaInstance o))).Publishes r.value.correlationId c →
      c.type = .authorizePayment →
      ∃ customerId, c.payload.customerId = some customerId ∧ PlacedBy s o customerId := by
  have he := hI.events _ _ hjob.delivered
  have hread := hjob.seen o
  generalize (Store.row seen (.sagaInstance o) : Option SagaInstanceRow) = found at hread ⊢
  obtain ⟨ho, ⟨htype, items, -, rfl⟩ | ⟨hne, -, rfl⟩⟩ := decisionOf_cases hdec
  · cases found with
    | some old => exact ⟨fun _ h => h.elim, fun _ h => h.elim⟩
    | none =>
      constructor
      · rintro row ⟨time, rfl⟩
        rw [htype] at he
        show ∃ customerId, r.value.payload.customerId = some customerId ∧ _
        generalize r.value.payload = payload at he ho ⊢
        cases he with
        | orderCreated hplaced =>
          obtain rfl := Option.some.inj ho
          exact ⟨_, rfl, _, hplaced⟩
      · rintro c ⟨-, htype', -⟩ hcharge
        cases hcharge.symm.trans htype'
  · cases found with
    | none => exact ⟨fun _ h => h.elim, fun _ h => h.elim⟩
    | some old =>
      obtain ⟨customerId, hcontext, hplaced⟩ := hread old rfl
      obtain ⟨hwrites, hpublishes⟩ := decideEvent_context old r.value.type r.value.correlationId
        (he.customerId hne)
      exact ⟨fun row hrow => ⟨customerId, (hwrites row hrow).trans hcontext, hplaced⟩,
        fun c hc htype => ⟨customerId, (hpublishes c hc htype).trans hcontext, hplaced⟩⟩

/-- **Every step keeps it.** -/
theorem CallInv.step (hC : CallInv s) (hI : CheckoutInv s) (hdb : Consistent s.db)
    (hjob : CallJob s t seen) (h : ServiceStep t seen s s') : CallInv s' := by
  have hgrow := h.grows hdb
  constructor
  · intro o row hrow
    obtain hsame | ⟨r, decision, row', rfl, hdec, hwrites, hrow'⟩ := h.saga_cases o
    · rw [hsame] at hrow
      obtain ⟨customerId, hcontext, hplaced⟩ := hC.rows o row hrow
      exact ⟨customerId, hcontext, hplaced.grow hgrow⟩
    · obtain rfl := Option.some.inj (hrow.symm.trans hrow')
      obtain ⟨customerId, hcontext, hplaced⟩ := (customer_of_decision hjob hI hdec).1 row hwrites
      exact ⟨customerId, hcontext, hplaced.grow hgrow⟩
  · rintro topic c ⟨task, key, res, hmem⟩ htype
    obtain hold | ⟨rfl, hallowed, -⟩ := h.new_event hmem
    · obtain ⟨o, customerId, ho, hcustomer, hplaced⟩ :=
        hC.commands topic c ⟨task, key, res, hold⟩ htype
      exact ⟨o, customerId, ho, hcustomer, hplaced.grow hgrow⟩
    · obtain ⟨-, ⟨_, _, _, rfl, hcreate, -⟩ | ⟨r, orderId, decision, rfl, hdec, hpublishes⟩⟩ :=
        MayPublish.of_command hallowed
      · cases htype.symm.trans hcreate
      · obtain ⟨customerId, hcustomer, hplaced⟩ :=
          (customer_of_decision hjob hI hdec).2 c hpublishes htype
        exact ⟨orderId, customerId, publishes_orderId hdec hpublishes, hcustomer,
          hplaced.grow hgrow⟩
  · intro call hcall
    obtain ⟨task, hmem⟩ := mem_gatewayCalls.mp hcall
    obtain hold | ⟨rfl, hallowed, -⟩ := h.new_event hmem
    · exact (hC.calls call (mem_gatewayCalls.mpr ⟨task, hold⟩)).grow hgrow
    · obtain ⟨r, command, rfl, hcommand, hparams⟩ := hallowed
      obtain ⟨o, customerId, ho, hcustomer, hplaced⟩ :=
        hC.commands _ _ hjob.delivered hcommand.type
      obtain rfl := Option.some.inj (ho.symm.trans hcommand.orderId)
      obtain rfl := Option.some.inj (hcustomer.symm.trans hcommand.customerId)
      have hcommanded := hI.commands _ _ hjob.delivered
      rw [hcommand.type] at hcommanded
      have hok : CallOk s call.params := by
        rw [hparams]
        exact ⟨hplaced, hcommanded.amount hcommand.orderId hcommand.amountCents, rfl⟩
      exact hok.grow hgrow
  · intro p rows hrows r hr
    obtain hold | ⟨rows', r', hrows', rfl, happ⟩ := h.stream_before hrows
    · exact (hC.streams p rows hold r hr).grow hgrow
    obtain hold | hnew := List.mem_append.mp hr
    · exact (hC.streams p rows' hrows' r hold).grow hgrow
    · obtain rfl := List.mem_singleton.mp hnew
      cases happ with
      | @charged _ command _ reply result _ hcommand hanswer hcalled =>
        exact ⟨command, reply, result,
          mem_gatewayCalls.mpr ⟨_, hgrow.trace.subset hcalled⟩, hanswer, rfl⟩
      | @refunded c _ _ _ _ hrefund =>
        have hcommand := hI.commands _ _ hjob.delivered
        rw [hrefund] at hcommand
        cases hcommand

end Step

theorem CallInv.start {s : Shared} (hdb : OnlyStocked s.db) (htrace : s.trace = []) : CallInv s where
  rows o row hrow := by
    rw [hdb (.sagaInstance o) nofun] at hrow
    cases hrow
  commands topic c hpublished := absurd hpublished (not_published htrace topic _)
  calls call hcall := by
    obtain ⟨t, hmem⟩ := mem_gatewayCalls.mp hcall
    exact absurd hmem (not_acted htrace t _ _)
  streams p rows hrows r hr := by
    rw [hdb.fresh.stream_nil hrows] at hr
    exact absurd hr List.not_mem_nil

theorem callInv_of_reach {S : System} {G : Guard} (hcode : S.code = code)
    (hspawn : ∀ s t, S.spawn s t → Delivered s.shared t)
    (hstart : ∀ s, S.start s → OnlyStocked s.db ∧ s.trace = []) {s : State} (h : Reach S G s) :
    CallInv s.shared := by
  have hkeeps : S.Keeps serviceProtocol G :=
    keepsServiceProtocol hcode fun s hs => (hstart s hs).1.fresh.consistent
  refine Protocol.invariant_of_known hkeeps (K := CheckoutInv)
    (fun s hs => checkoutInv_of_reach hcode hspawn hstart hs) (J := CallJob)
    (fun s t ht => ⟨hspawn s t ht, fun o row hrow => ?_⟩) (fun t seen s s' hgrow hjob =>
    hjob.grow hgrow) (fun t seen s hC hjob => ⟨hjob.delivered, hC.rows⟩) (fun s hs => ?_)
    (fun t seen s s' hdb hI _ htook hC hstep => hC.step hI hdb htook.task hstep) h
  · rw [Store.row_nil] at hrow
    cases hrow
  · exact .start (hstart s hs).1 (hstart s hs).2

end Saganova
