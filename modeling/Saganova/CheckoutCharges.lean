import Mathlib.Data.List.Pairwise
import Saganova.CheckoutOutcomes

/-!
# What customers are charged

The calls of the gateway's `authorize` in the composed system, a handler at a
time.  An order is called for once, and what came of it is its payment
(`CallsOnce`).

So at rest the provider has accepted one charge for every confirmed order, its
total, and none for the others (`chargedAtRest`).  The mock adapter declines one
customer by name, who is no UUID: with it no order whose stock is reserved is
cancelled (`mockOutcome`).
-/

namespace Saganova

open Concurrency Decision

/-! ## Charges -/

/-- The provider accepted the charge. -/
def GatewayCall.accepted (call : GatewayCall) : Bool :=
  match call.reply.answer with
  | .ok result => result.success
  | .error _ => false

def callsFor (s : Shared) (o : Uuid) : List GatewayCall :=
  (gatewayCalls s).filter (·.params.orderId = o)

def SameKey (call call' : GatewayCall) : Prop :=
  call.params.idempotencyKey = call'.params.idempotencyKey

instance : DecidableRel SameKey := fun _ _ => inferInstanceAs (Decidable (_ = _))

/-- What was charged for an order: the provider charges once for each
idempotency key that it answers with success. -/
def chargedFor (s : Shared) (o : Uuid) : List Num :=
  (((callsFor s o).filter (·.accepted)).pwFilter fun call call' => ¬ SameKey call call').map
    (·.params.amountCents)

/-! ## A call for an order -/

section Run

variable {answer : ℕ → (a : Act) → Act.Reply a} {t : Task} {s : Shared}

/-- Tasks that do not charge make no call. -/
theorem run_gatewayCalls (hdb : Consistent s.db)
    (ht : ∀ r command, t = .command .payment r → ¬ IsAuthorizePayment r.value command) :
    gatewayCalls (Proc.run answer t (code t) s).2 = gatewayCalls s := by
  refine (code_keeps (I := fun s' => gatewayCalls s' = gatewayCalls s) hdb rfl
    fun seen s₁ s₂ _ hsame hstep => ?_).2
  have hcalls : gatewayCalls s₂ = gatewayCalls s₁ := by
    cases hstep with
    | acted a res hallowed =>
      cases a with
      | authorize params =>
        obtain ⟨r, command, rfl, hcommand, -⟩ := hallowed
        exact absurd hcommand (ht r command rfl)
      | _ => rfl
    | appended w _ _ _ _ => rfl
    | sagaSaved row _ _ _ => rfl
  exact hcalls.trans hsame

/-- An order is charged where it has no payment, and once. -/
theorem after_authorizePayment {command : AuthorizePaymentCommand} (hdb : Consistent s.db) :
    (AuthorizePaymentHandler.execute command).After answer t (fun _ s' =>
      gatewayCalls s' = gatewayCalls s ∨
      Store.row s.db (.paymentOfOrder command.orderId) = none ∧ ∃ reply, gatewayCalls s' =
        ⟨AuthorizePaymentHandler.params command, reply⟩ :: gatewayCalls s) s := by
  cases hindex : Store.row s.db (.paymentOfOrder command.orderId) with
  | some p =>
    obtain ⟨row, hrow, -⟩ := (hdb.index _ _).mp hindex
    refine Proc.after_read ?_
    simp only [hindex, hrow, Option.bind_eq_bind, Option.bind_some]
    exact .inl rfl
  | none =>
    refine Proc.after_read ?_
    simp only [hindex, Option.bind_eq_bind, Option.bind_none, randomUUID_bind,
      PaymentGateway.authorize_bind]
    refine Proc.after_act (Proc.after_act ?_)
    generalize answer _ (.authorize _) = reply
    refine Proc.After.mono (Q := fun _ s' => gatewayCalls s' =
      ⟨AuthorizePaymentHandler.params command, reply⟩ :: gatewayCalls s) ?_
      fun _ _ h => .inr ⟨trivial, reply, h⟩
    cases reply.answer with
    | error e => rfl
    | ok result =>
      rw [Proc.ofExcept_ok, pure_bind, now_bind]
      refine Proc.after_act ?_
      rw [aggregate_eq]
      exact Proc.after_bind _ _ (after_save .payment (fun _ _ _ => rfl) fun _ _ _ => rfl)

/-- The same of the delivery of its command. -/
theorem run_authorizePayment {r : Record CommandEnvelope} {command : AuthorizePaymentCommand}
    (hdb : Consistent s.db) (hcommand : IsAuthorizePayment r.value command) :
    (code (.command .payment r)).After answer t (fun _ s' =>
      gatewayCalls s' = gatewayCalls s ∨
      Store.row s.db (.paymentOfOrder command.orderId) = none ∧ ∃ reply, gatewayCalls s' =
        ⟨AuthorizePaymentHandler.params command, reply⟩ :: gatewayCalls s) s := by
  have hdispatch : consumer .payment r.value = AuthorizePaymentHandler.execute command := by
    show PaymentKafkaConsumer.dispatch r.value = _
    unfold PaymentKafkaConsumer.dispatch
    simp only [hcommand.type, hcommand.orderId, hcommand.customerId, hcommand.amountCents,
      hcommand.correlationId]
    rfl
  show Proc.After answer t _ (consumer .payment r.value >>= fun _ => commitOffsets _ _ _) s
  rw [hdispatch]
  refine Proc.after_bind _ _ ((after_authorizePayment hdb).mono fun res s' h => ?_)
  cases res with
  | error e => exact h
  | ok u =>
    refine Proc.after_act ?_
    generalize answer _ _ = res
    cases res with
    | error e => exact h
    | ok u => exact h

end Run

/-! ## One call for an order -/

/-- No order is charged twice, and every order that was charged has its payment. -/
structure CallsOnce (s : Shared) : Prop where
  nodup : ((gatewayCalls s).map (·.params.orderId)).Nodup
  paid : ∀ call ∈ gatewayCalls s, ∃ p,
    Store.row s.db (.paymentOfOrder call.params.orderId) = some p

theorem CallsOnce.run {c : Checkout} {answer : ℕ → (a : Act) → Act.Reply a} {t : Task}
    (hcalls : CallsOnce c.shared) (hdb : Consistent c.shared.db) (ht : c.Succeeds answer t) :
    CallsOnce (c.run answer t) := by
  have hgrow : Grows c.shared (c.run answer t) := Checkout.grows_run hdb
  have hsame : gatewayCalls (c.run answer t) = gatewayCalls c.shared → CallsOnce (c.run answer t) := by
    intro heq
    constructor
    · rw [heq]
      exact hcalls.nodup
    · intro call hcall
      rw [heq] at hcall
      exact (hcalls.paid call hcall).imp fun _ h => hgrow.index h
  by_cases hcharge : ∃ r command, t = .command .payment r ∧ IsAuthorizePayment r.value command
  · obtain ⟨r, command, rfl, hcommand⟩ := hcharge
    have hafter : gatewayCalls (c.run answer (.command .payment r)) = _ ∨ _ :=
      run_authorizePayment hdb hcommand
    obtain heq | ⟨hnone, reply, heq⟩ := hafter
    · exact hsame heq
    replace heq : gatewayCalls (c.run answer (.command .payment r)) = _ := heq
    have habsorbed := absorbed_of_handled hdb ht.answers ht.returns
    have hpaid := habsorbed.payment_index hcommand.type hcommand.orderId
    constructor
    · rw [heq, List.map_cons, List.nodup_cons]
      refine ⟨fun hmem => ?_, hcalls.nodup⟩
      obtain ⟨call, hcall, ho⟩ := List.mem_map.mp hmem
      obtain ⟨p, hp⟩ := hcalls.paid call hcall
      rw [ho] at hp
      cases hnone.symm.trans hp
    · intro call hcall
      rw [heq] at hcall
      obtain rfl | hold := List.mem_cons.mp hcall
      · exact hpaid
      · exact (hcalls.paid call hold).imp fun _ h => hgrow.index h
  · exact hsame (run_gatewayCalls hdb fun r command heq hcommand => hcharge ⟨r, command, heq, hcommand⟩)

theorem callsOnce_of_reach {c : Checkout} (h : CheckoutReach c) : CallsOnce c.shared := by
  induction h with
  | start hdb => exact ⟨List.nodup_nil, fun call hcall => absurd hcall List.not_mem_nil⟩
  | step h hstep ih =>
    obtain ⟨answer, t, ht, hrun⟩ := hstep.shared_eq
    rw [hrun]
    exact ih.run h.sound.consistent ht

/-! ## At rest -/

section Rest

variable {s : Shared} {o p : Uuid}

/-- What is alone in having its image, alone stays. -/
theorem filter_eq_singleton {α β : Type} [DecidableEq β] {f : α → β} {l : List α} {x : α}
    (hnodup : (l.map f).Nodup) (hx : x ∈ l) : (l.filter fun y => f y = f x) = [x] := by
  induction l with
  | nil => cases hx
  | cons y l ih =>
    rw [List.map_cons, List.nodup_cons] at hnodup
    obtain ⟨hnotin, hnodup⟩ := hnodup
    obtain rfl | hmem := List.mem_cons.mp hx
    · have hrest : (l.filter fun y => f y = f x) = [] := by
        refine List.filter_eq_nil_iff.mpr fun z hz => ?_
        simpa using fun heq : f z = f x => hnotin (List.mem_map.mpr ⟨z, hz, heq⟩)
      rw [List.filter_cons_of_pos (by simp), hrest]
    · have hne : f y ≠ f x := fun heq => hnotin (List.mem_map.mpr ⟨x, hmem, heq.symm⟩)
      rw [List.filter_cons_of_neg (by simpa using hne), ih hnodup hmem]

/-- An order without a payment was not charged. -/
theorem CallsOnce.callsFor_nil (hcalls : CallsOnce s) (hdb : Consistent s.db)
    (hunpaid : ∀ p, ¬ PaymentOf s.db o p) : callsFor s o = [] := by
  refine List.filter_eq_nil_iff.mpr fun call hcall => ?_
  obtain ⟨p, hp⟩ := hcalls.paid call hcall
  simp only [decide_eq_true_eq]
  rintro rfl
  exact hunpaid p ((paymentOf_iff hdb).mpr hp)

/-- The payment of an order is the record of the one call for it. -/
theorem CallsOnce.callsFor_of_payment (hcalls : CallsOnce s) (hI : CheckoutInv s) (hC : CallInv s)
    (h : PaymentOf s.db o p) :
    ∃ command call result r, callsFor s o = [call] ∧ HasStream .payment s.db p [r] ∧
      call.params = AuthorizePaymentHandler.params command ∧ call.reply.answer = .ok result ∧
      r.event = AuthorizePaymentHandler.event command p result := by
  obtain ⟨rows, hrows, hne, ho⟩ := h
  have hone : ∃ r, rows = [r] := by
    cases hI.streams _ _ _ hrows with
    | nil => exact absurd rfl hne
    | authorized _ _ _ _ => exact ⟨_, rfl⟩
    | declined _ _ _ => exact ⟨_, rfl⟩
  obtain ⟨r, rfl⟩ := hone
  obtain ⟨command, reply, result, hcall, hanswer, hevent⟩ := hC.streams p _ hrows r (by simp)
  rw [replay_one, hevent] at ho
  have horder : (AuthorizePaymentHandler.params command).orderId = o :=
    (event_orderId command p result _).symm.trans ho
  refine ⟨command, ⟨_, reply⟩, result, r, ?_, hrows, rfl, hanswer, hevent⟩
  rw [← horder]
  exact filter_eq_singleton hcalls.nodup hcall

theorem PaidBy.paymentOf {items : List OrderLineItem} (h : PaidBy s o p items) :
    PaymentOf s.db o p := by
  obtain ⟨rows, hrows, hstatus, ho, -⟩ := h
  refine ⟨rows, hrows, ?_, ho⟩
  rintro rfl
  cases hstatus

theorem DeclinedBy.paymentOf (h : DeclinedBy s o p) : PaymentOf s.db o p := by
  obtain ⟨rows, hrows, hstatus, ho⟩ := h
  refine ⟨rows, hrows, ?_, ho⟩
  rintro rfl
  cases hstatus

/-- The call that an authorized payment is the record of was accepted, for its amount. -/
theorem PaidBy.call {items : List OrderLineItem} (h : PaidBy s o p items) (hcalls : CallsOnce s)
    (hI : CheckoutInv s) (hC : CallInv s) :
    ∃ call result, callsFor s o = [call] ∧ call.reply.answer = .ok result ∧
      result.success = true ∧
      call.params.amountCents = (items.map fun i => i.qty * i.unitPriceCents).sum := by
  obtain ⟨command, call, result, r, hcall, hrows, hparams, hanswer, hevent⟩ :=
    hcalls.callsFor_of_payment hI hC h.paymentOf
  obtain ⟨rows, hrows', hstatus, -, hamount⟩ := h
  obtain rfl := hrows.unique hrows'
  rw [replay_one, hevent] at hstatus hamount
  unfold AuthorizePaymentHandler.event at hstatus hamount
  split at hstatus
  · rename_i hsuccess
    rw [if_pos hsuccess] at hamount
    exact ⟨call, result, hcall, hanswer, hsuccess, by rw [hparams]; exact hamount⟩
  · cases hstatus

/-- The call that a declined payment is the record of was not accepted. -/
theorem DeclinedBy.call (h : DeclinedBy s o p) (hcalls : CallsOnce s) (hI : CheckoutInv s)
    (hC : CallInv s) :
    ∃ call result, callsFor s o = [call] ∧ call.reply.answer = .ok result ∧
      result.success = false := by
  obtain ⟨command, call, result, r, hcall, hrows, hparams, hanswer, hevent⟩ :=
    hcalls.callsFor_of_payment hI hC h.paymentOf
  obtain ⟨rows, hrows', hstatus, -⟩ := h
  obtain rfl := hrows.unique hrows'
  rw [replay_one, hevent] at hstatus
  unfold AuthorizePaymentHandler.event at hstatus
  split at hstatus
  · cases hstatus
  · rename_i hsuccess
    exact ⟨call, result, hcall, hanswer, by simpa using hsuccess⟩

theorem GatewayCall.accepted_eq {call : GatewayCall} {result : AuthorizeResult}
    (h : call.reply.answer = .ok result) : call.accepted = result.success := by
  unfold GatewayCall.accepted
  rw [h]

/-- A checkout has ended at one of three phases. -/
theorem EndedAt.phase_cases {phase : CheckoutPhase} {items : List OrderLineItem}
    {result : OrderStatusResult} {row : OrderProjectionRow} (h : EndedAt s o phase items result row) :
    phase = .completed ∨ phase = .unreserved ∨ phase = .declined := by
  have hfinal := h.final
  unfold OrderStatusResult.Final at hfinal
  rw [h.shows.sagaStatus] at hfinal
  cases phase with
  | reserving => simp [CheckoutPhase.sagaStatus] at hfinal
  | charging => simp [CheckoutPhase.sagaStatus] at hfinal
  | completed => exact .inl rfl
  | unreserved => exact .inr (.inl rfl)
  | declined => exact .inr (.inr rfl)

theorem EndedAt.chargedFor_eq {phase : CheckoutPhase} {items : List OrderLineItem}
    {result : OrderStatusResult} {row : OrderProjectionRow} (h : EndedAt s o phase items result row)
    (hcalls : CallsOnce s) (hI : CheckoutInv s) (hC : CallInv s) (hdb : Consistent s.db) :
    chargedFor s o = if row.status = .confirmed then [(row.totalCents : Num)] else [] := by
  unfold chargedFor
  rw [h.orderStatus]
  obtain rfl | rfl | rfl := h.phase_cases
  · obtain ⟨p, -, hpaid⟩ := h.paid rfl
    obtain ⟨call, result, hcall, hanswer, hsuccess, hamount⟩ := hpaid.call hcalls hI hC
    have haccepted := (call.accepted_eq hanswer).trans hsuccess
    rw [hcall, List.filter_cons_of_pos haccepted, List.filter_nil,
      List.Pairwise.pwFilter (List.pairwise_singleton _ _), List.map_singleton, hamount, h.total]
    rfl
  · rw [hcalls.callsFor_nil hdb (h.unpaid rfl).2]
    rfl
  · obtain ⟨p, hdeclined⟩ := h.declined rfl
    obtain ⟨call, result, hcall, hanswer, hsuccess⟩ := hdeclined.call hcalls hI hC
    have haccepted := (call.accepted_eq hanswer).trans hsuccess
    rw [hcall, List.filter_cons_of_neg (by simp [haccepted])]
    rfl

end Rest

/-- **At rest, a customer has been charged for every confirmed order, its total
and once, and for no other order.** -/
theorem chargedAtRest (c : Checkout) (h : CheckoutReach c) (hquiet : Quiet c)
    (hdrawn : DrawnOnce c.shared) (o : Uuid) (hasked : Asked c.shared .createOrder o) :
    ∃ row, GetOrderByIdHandler.execute c.shared.db o = .ok row ∧
      chargedFor c.shared o = if row.status = .confirmed then [(row.totalCents : Num)] else [] := by
  obtain ⟨phase, items, result, row, hended⟩ := hquiet.endedAt h hdrawn hasked
  exact ⟨row, hended.order,
    hended.chargedFor_eq (callsOnce_of_reach h) h.sound.inv h.calls h.sound.consistent⟩

/-- What the first of the three requests was charged. -/
theorem chargedAtRest_requests : ∃ row,
    GetOrderByIdHandler.execute atRest.shared.db (uuidOf 0) = .ok row ∧
      chargedFor atRest.shared (uuidOf 0) =
        if row.status = .confirmed then [(row.totalCents : Num)] else [] :=
  chargedAtRest _ reach_atRest quiet_atRest drawnOnce_atRest (uuidOf 0)
    (asked_atRest (by decide +kernel))

/-! ## The mock adapter -/

/-- The gateway is the mock adapter. -/
def AnsweredByMock (s : Shared) : Prop :=
  ∀ call ∈ gatewayCalls s, ∃ uuid,
    call.reply.answer = .ok (MockStripeAdapter.authorize call.params uuid)

section Mock

variable {s : Shared} {o : Uuid}

/-- The mock adapter accepts the call for an order unless its customer is the one it declines. -/
theorem AnsweredByMock.success_eq {customerId : Uuid} {items : List OrderLineItem}
    {call : GatewayCall} {result : AuthorizeResult} (hmock : AnsweredByMock s)
    (hcall : callsFor s o = [call]) (hanswer : call.reply.answer = .ok result)
    (hplaced : Placed s o customerId items) (hC : CallInv s) (hdrawn : DrawnOnce s) :
    result.success = !decide (customerId = "cust_DECLINE") := by
  have hfor : call ∈ callsFor s o := by
    rw [hcall]
    exact List.mem_singleton.mpr rfl
  obtain ⟨hmem, ho⟩ := List.mem_filter.mp hfor
  obtain rfl : call.params.orderId = o := of_decide_eq_true ho
  obtain ⟨items', hplaced'⟩ := (hC.calls call hmem).customer
  obtain rfl := hplaced.customer_eq hdrawn hplaced'
  obtain ⟨uuid, hmock⟩ := hmock call hmem
  obtain rfl := Except.ok.inj (hanswer.symm.trans hmock)
  unfold MockStripeAdapter.authorize
  split <;> simp_all

end Mock

/-- The customer of every order is a UUID. -/
def UuidCustomers (s : Shared) : Prop :=
  ∀ o customerId items, Placed s o customerId items → IsUuid customerId

/-- **With the mock adapter, every order whose stock is reserved is confirmed**:
the customer it declines is no UUID. -/
theorem mockOutcome (c : Checkout) (h : CheckoutReach c) (hquiet : Quiet c)
    (hdrawn : DrawnOnce c.shared) (hmock : AnsweredByMock c.shared)
    (huuid : UuidCustomers c.shared) (o : Uuid) (hasked : Asked c.shared .createOrder o) :
    ∃ phase items result row, EndedAt c.shared o phase items result row ∧
      (phase = .unreserved ∨ phase = .completed) := by
  obtain ⟨phase, items, result, row, hended⟩ := hquiet.endedAt h hdrawn hasked
  have hcalls := callsOnce_of_reach h
  refine ⟨phase, items, result, row, hended, ?_⟩
  obtain rfl | rfl | rfl := hended.phase_cases
  · exact .inr rfl
  · exact .inl rfl
  · exfalso
    obtain ⟨p, hdeclined⟩ := hended.declined rfl
    obtain ⟨call, result, hcall, hanswer, hsuccess⟩ := hdeclined.call hcalls h.sound.inv h.calls
    have heq := hmock.success_eq hcall hanswer hended.placed h.calls hdrawn
    rw [hsuccess] at heq
    have hcustomer : row.customerId = "cust_DECLINE" := by simpa using heq.symm
    have hcolumn := huuid o row.customerId items hended.placed
    rw [hcustomer] at hcolumn
    exact absurd hcolumn (by decide +kernel)

theorem answeredByMock_atRest : AnsweredByMock atRest.shared :=
  drain_keeps (I := fun c => AnsweredByMock c.shared) (fun c t _ _ hc _ _ => by
    rw [Checkout.handle_shared]
    exact calls_run (P := fun params reply => ∃ uuid,
      reply.answer = .ok (MockStripeAdapter.authorize params uuid))
      (fun _ params => ⟨_, rfl⟩) _ hc) _ reach_afterRequests roomy_afterRequests (by
    have hnil : gatewayCalls afterRequests.shared = [] := List.isEmpty_iff.mp (by decide +kernel)
    intro call hcall
    rw [hnil] at hcall
    cases hcall)

/-- What the second of the three requests comes to. -/
theorem mockOutcome_requests : ∃ phase items result row,
    EndedAt atRest.shared (uuidOf 4) phase items result row ∧
      (phase = .unreserved ∨ phase = .completed) := by
  refine mockOutcome _ reach_atRest quiet_atRest drawnOnce_atRest answeredByMock_atRest
    (fun o customerId items hplaced => ?_) (uuidOf 4) (asked_atRest (by decide +kernel))
  obtain ⟨⟨correlationId, hdrawn⟩, -⟩ := hplaced
  exact (roomy_afterRequests.requests _ _ _ _ (draws_drain _ reach_afterRequests
    roomy_afterRequests trivial hdrawn)).customer

end Saganova
