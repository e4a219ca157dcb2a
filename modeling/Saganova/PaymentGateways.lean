import Saganova.GatewayCalls

/-!
# What the gateways answer

`StripeAdapter` and `MockStripeAdapter`, the two implementations of
`PaymentGateway`.  Stripe refuses a key that comes again with another request,
so an idempotency key has to name one request; in the composed system it does
(`keyNamesOneRequest`).

The adapter tells a card that is declined from everything else that is thrown.
An order is confirmed only on a PaymentIntent for its total that went through,
and cancelled, once its stock is reserved, only on a decline
(`settledByStripe`): no outage does either.
-/

namespace Saganova

open Concurrency

/-! ## The adapters -/

namespace StripeAdapter

/-- The arguments of `paymentIntents.create`. -/
structure CreateIntent where
  amount : Num
  currency : String
  confirm : Bool
  paymentMethod : String
  offSession : Bool
  orderId : Uuid
  customerId : Uuid
  idempotencyKey : String
  deriving DecidableEq

def request (params : AuthorizeParams) : CreateIntent where
  amount := params.amountCents
  currency := "usd"
  confirm := true
  paymentMethod := "pm_card_visa"
  offSession := true
  orderId := params.orderId
  customerId := params.customerId
  idempotencyKey := params.idempotencyKey

/-- What comes of the call: a PaymentIntent, or what is thrown. -/
inductive Outcome
  | intent (id status : String)
  /-- `StripeCardError` -/
  | cardError (declineCode code : Option String) (message : String)
  | thrown (e : Err)

def authorize : Outcome → Except Err AuthorizeResult
  | .intent id status =>
    if status = "succeeded" ∨ status = "requires_capture" then
      .ok { success := true, pspReference := some id }
    else
      .ok { success := false, reason := some s!"PaymentIntent ended in unhandled status: {status}" }
  | .cardError declineCode code message =>
    .ok { success := false, declineCode := some ((declineCode <|> code).getD "card_error")
          reason := some message }
  | .thrown e => .error e

/-- A decline: the card was refused, or the PaymentIntent did not go through. -/
def Declines : Outcome → Prop
  | .intent _ status => ¬ (status = "succeeded" ∨ status = "requires_capture")
  | .cardError _ _ _ => True
  | .thrown _ => False

end StripeAdapter

namespace MockStripeAdapter

/-- With the id that it draws. -/
def authorize (params : AuthorizeParams) (uuid : Uuid) : AuthorizeResult :=
  if params.customerId = "cust_DECLINE" then
    { success := false, declineCode := some "generic_decline"
      reason := some "Your card was declined (simulated by MockStripeAdapter)." }
  else
    { success := true, pspReference := some s!"mock_pi_{uuid}" }

end MockStripeAdapter

/-! ## Runs with a gateway -/

section Run

variable {answer : ℕ → (a : Act) → Act.Reply a} {t : Task} {P : AuthorizeParams → AuthorizeReply → Prop}

/-- What the gateway answers in a run is what it was given to answer. -/
theorem calls_run {α : Type} (hP : ∀ k params, P params (answer k (.authorize params)))
    (p : Handler α) {s : Shared} (hs : ∀ call ∈ gatewayCalls s, P call.params call.reply) :
    ∀ call ∈ gatewayCalls (p.run answer t s).2, P call.params call.reply := by
  induction p generalizing s with
  | pure a => exact hs
  | throw e => exact hs
  | read next ih => exact ih _ hs
  | act a next ih =>
    refine ih _ fun call hcall => ?_
    obtain ⟨t', hmem⟩ := mem_gatewayCalls.mp hcall
    obtain heq | hold := List.mem_cons.mp hmem
    · injection heq with _ ha hr
      subst ha
      rw [eq_of_heq hr]
      exact hP _ _
    · exact hs call (mem_gatewayCalls.mpr ⟨t', hold⟩)
  | tx body next ih =>
    cases hexec : body.exec s.db [] with
    | error e =>
      rw [Proc.run_tx_error _ _ _ hexec]
      exact ih _ hs
    | ok r =>
      rw [Proc.run_tx_ok _ _ _ hexec]
      exact ih _ hs

theorem calls_runs {S : System} (hP : ∀ k params, P params (answer k (.authorize params)))
    (ts : List Task) {s : Shared} (hs : ∀ call ∈ gatewayCalls s, P call.params call.reply) :
    ∀ call ∈ gatewayCalls (S.runs answer ts s), P call.params call.reply := by
  induction ts generalizing s with
  | nil => exact hs
  | cons t ts ih => exact ih (calls_run hP _ hs)

end Run

/-! ## One request for a key -/

theorem callInv_of_locks {s : LockState} (h : LockReach checkoutSystem anything s) :
    CallInv s.base.shared :=
  callInv_of_reach rfl (fun _ _ ht => ht) (fun _ hs => hs) h.atomic.2

theorem idempotencyKey_injective : Function.Injective idempotencyKey := by
  intro o o' h
  have hchars := congrArg String.toList h
  simp only [idempotencyKey, String.toList_append, List.append_cancel_left_eq] at hchars
  exact String.toList_inj.mp hchars

section Requests

variable {s : Shared} {o customerId customerId' : Uuid} {items items' : List OrderLineItem}

/-- An order has one customer. -/
theorem Placed.customer_eq (hdrawn : DrawnOnce s) (h : Placed s o customerId items)
    (h' : Placed s o customerId' items') : customerId = customerId' := by
  obtain ⟨⟨c, hmem⟩, -⟩ := h
  obtain ⟨⟨c', hmem'⟩, -⟩ := h'
  have htask := hdrawn (.createOrder customerId items c) (.createOrder customerId' items' c') o
    trivial trivial hmem hmem'
  injection htask

/-- What is asked of the gateway, by the order it is asked for. -/
theorem CallOk.eq {params : AuthorizeParams} (h : CallOk s params) (hdrawn : DrawnOnce s)
    (hplaced : Placed s params.orderId customerId items) :
    params = { orderId := params.orderId, customerId
               amountCents := (items.map fun i => i.qty * i.unitPriceCents).sum
               idempotencyKey := idempotencyKey params.orderId } := by
  obtain ⟨items₁, hplaced₁⟩ := h.customer
  obtain ⟨customerId₂, items₂, hplaced₂, hamount⟩ := h.amount
  obtain rfl := hplaced.customer_eq hdrawn hplaced₁
  obtain rfl := hplaced.unique hdrawn hplaced₂
  rw [totalCents_eq] at hamount
  obtain ⟨orderId, customerId, amountCents, key⟩ := params
  obtain rfl : key = idempotencyKey orderId := h.key
  obtain rfl : amountCents = _ := hamount
  rfl

end Requests

/-- **An idempotency key names one request**: that of an order, for its total and
in the name of the customer who placed it. -/
theorem keyNamesOneRequest (s : LockState) (h : LockReach checkoutSystem anything s) (key : String)
    (call : GatewayCall) (hcall : call ∈ gatewayCalls s.base.shared)
    (hkey : call.params.idempotencyKey = key) :
    ∃ o customerId items, Placed s.base.shared o customerId items ∧
      ∀ call' ∈ gatewayCalls s.base.shared, call'.params.idempotencyKey = key →
        StripeAdapter.request call'.params =
          { amount := (items.map fun i => i.qty * i.unitPriceCents).sum, currency := "usd"
            confirm := true, paymentMethod := "pm_card_visa", offSession := true
            orderId := o, customerId, idempotencyKey := key } := by
  have hC := callInv_of_locks h
  have hdrawn := drawnOnce_of_reach h.atomic.2
  obtain ⟨items, hplaced⟩ := (hC.calls call hcall).customer
  refine ⟨call.params.orderId, call.params.customerId, items, hplaced, fun call' hcall' hkey' => ?_⟩
  have hok := hC.calls call' hcall'
  have horder : call'.params.orderId = call.params.orderId := by
    refine idempotencyKey_injective ?_
    rw [← hok.key, ← (hC.calls call hcall).key, hkey, hkey']
  have hparams := hok.eq hdrawn (horder ▸ hplaced)
  rw [hparams, ← hkey', hok.key, horder]
  rfl

/-- The call in a sale names its request. -/
theorem keyNamesOneRequest_sale : ∃ s : LockState, ∃ call ∈ gatewayCalls s.base.shared,
    ∃ o customerId items, Placed s.base.shared o customerId items ∧
      ∀ call' ∈ gatewayCalls s.base.shared,
        call'.params.idempotencyKey = call.params.idempotencyKey →
        StripeAdapter.request call'.params =
          { amount := (items.map fun i => i.qty * i.unitPriceCents).sum, currency := "usd"
            confirm := true, paymentMethod := "pm_card_visa", offSession := true
            orderId := o, customerId, idempotencyKey := call.params.idempotencyKey } := by
  have hreach := reach_sale.withLocks
  obtain ⟨call, hcall⟩ := List.exists_mem_of_ne_nil
    (gatewayCalls (checkoutSystem.runs allWell sale ⟨fiveInStock, []⟩))
    (List.isEmpty_eq_false_iff.mp (by decide +kernel))
  exact ⟨_, call, hcall, keyNamesOneRequest _ hreach _ call hcall rfl⟩

/-! ## What an order comes to -/

/-- The gateway is Stripe's adapter. -/
def AnsweredByStripe (s : Shared) : Prop :=
  ∀ call ∈ gatewayCalls s, ∃ outcome, call.reply.answer = StripeAdapter.authorize outcome

/-- What became of an order is what became of its PaymentIntent. -/
structure SettledByStripe (s : Shared) (o : Uuid) (rows : List (EventStoreRow .order)) : Prop where
  confirmed : (replay .order rows).status = .confirmed →
    ∃ call ∈ gatewayCalls s, ∃ id status customerId items, Placed s o customerId items ∧
      call.params.orderId = o ∧
      (StripeAdapter.request call.params).amount =
        (items.map fun i => i.qty * i.unitPriceCents).sum ∧
      call.reply.answer = StripeAdapter.authorize (.intent id status) ∧
      (status = "succeeded" ∨ status = "requires_capture")
  cancelled : (replay .order rows).status = .cancelled → ReservationFailed s o ∨
    ∃ call ∈ gatewayCalls s, call.params.orderId = o ∧
      ∃ outcome, call.reply.answer = StripeAdapter.authorize outcome ∧
        StripeAdapter.Declines outcome

section Settled

variable {s : Shared} {o p : Uuid}

theorem StripeAdapter.success_iff {outcome : StripeAdapter.Outcome} {result : AuthorizeResult}
    (h : StripeAdapter.authorize outcome = .ok result) :
    (result.success = true → ∃ id status, outcome = .intent id status ∧
      (status = "succeeded" ∨ status = "requires_capture")) ∧
    (result.success = false → StripeAdapter.Declines outcome) := by
  cases outcome with
  | intent id status =>
    by_cases hstatus : status = "succeeded" ∨ status = "requires_capture"
    · obtain rfl := Except.ok.inj (h.symm.trans (if_pos hstatus))
      exact ⟨fun _ => ⟨id, status, rfl, hstatus⟩, fun hfalse => absurd hfalse.symm Bool.false_ne_true⟩
    · obtain rfl := Except.ok.inj (h.symm.trans (if_neg hstatus))
      exact ⟨fun htrue => absurd htrue Bool.false_ne_true, fun _ => hstatus⟩
  | cardError declineCode code message =>
    obtain rfl := Except.ok.inj h
    exact ⟨fun htrue => absurd htrue Bool.false_ne_true, fun _ => trivial⟩
  | thrown e => cases h

/-- The payment is what the adapter made of the call it records. -/
theorem RecordsCall.outcome {event : PaymentEvent} (h : RecordsCall s p event)
    (hstripe : AnsweredByStripe s) : ∃ call ∈ gatewayCalls s, ∃ outcome command result,
      call.params = AuthorizePaymentHandler.params command ∧
      call.reply.answer = StripeAdapter.authorize outcome ∧
      StripeAdapter.authorize outcome = .ok result ∧
      event = AuthorizePaymentHandler.event command p result := by
  obtain ⟨command, reply, result, hcall, hanswer, hevent⟩ := h
  obtain ⟨outcome, houtcome⟩ := hstripe _ hcall
  exact ⟨_, hcall, outcome, command, result, rfl, houtcome, houtcome.symm.trans hanswer, hevent⟩

theorem Authorized.settled {amountCents : Num} (h : Authorized s o p amountCents) (hC : CallInv s)
    (hstripe : AnsweredByStripe s) : ∃ call ∈ gatewayCalls s, ∃ id status,
      call.params.orderId = o ∧ call.params.amountCents = amountCents ∧
      call.reply.answer = StripeAdapter.authorize (.intent id status) ∧
      (status = "succeeded" ∨ status = "requires_capture") := by
  obtain ⟨pspReference, r, more, hrows, hevent⟩ := h
  obtain ⟨call, hcall, outcome, command, result, hparams, hanswer, hresult, hrecorded⟩ :=
    (hC.streams p _ hrows r List.mem_cons_self).outcome hstripe
  rw [hevent] at hrecorded
  unfold AuthorizePaymentHandler.event at hrecorded
  split at hrecorded
  · rename_i hsuccess
    obtain ⟨id, status, rfl, hstatus⟩ := (StripeAdapter.success_iff hresult).1 hsuccess
    injection hrecorded with hpayload
    injection hpayload with _ horder hamount _
    refine ⟨call, hcall, id, status, ?_, ?_, hanswer, hstatus⟩
    · rw [hparams, horder]
      rfl
    · rw [hparams, hamount]
      rfl
  · cases hrecorded

theorem Declined.settled (h : Declined s o) (hC : CallInv s) (hstripe : AnsweredByStripe s) :
    ∃ call ∈ gatewayCalls s, call.params.orderId = o ∧
      ∃ outcome, call.reply.answer = StripeAdapter.authorize outcome ∧
        StripeAdapter.Declines outcome := by
  obtain ⟨p, declineCode, reason, r, more, hrows, hevent⟩ := h
  obtain ⟨call, hcall, outcome, command, result, hparams, hanswer, hresult, hrecorded⟩ :=
    (hC.streams p _ hrows r List.mem_cons_self).outcome hstripe
  rw [hevent] at hrecorded
  unfold AuthorizePaymentHandler.event at hrecorded
  split at hrecorded
  · cases hrecorded
  · rename_i hsuccess
    injection hrecorded with hpayload
    injection hpayload with _ horder _ _
    refine ⟨call, hcall, ?_, outcome, hanswer,
      (StripeAdapter.success_iff hresult).2 (by simpa using hsuccess)⟩
    rw [hparams, horder]
    rfl

end Settled

/-- **With Stripe's adapter, an order is confirmed only on a PaymentIntent for
its total that went through, and cancelled only for its reservation or on a
decline.** -/
theorem settledByStripe (s : LockState) (h : LockReach checkoutSystem anything s)
    (hstripe : AnsweredByStripe s.base.shared) (o : Uuid) (rows : List (EventStoreRow .order))
    (hrows : HasStream .order s.base.shared.db o rows) : SettledByStripe s.base.shared o rows := by
  have hreach := h.atomic.2
  have hI : CheckoutInv s.base.shared :=
    checkoutInv_of_reach rfl (fun _ _ ht => ht) (fun _ hs => hs) hreach
  have hC := callInv_of_locks h
  constructor
  · intro hstatus
    obtain ⟨customerId, items, p, -, hplaced, hauthorized⟩ :=
      (hI.streams _ _ _ hrows).of_confirmed hstatus
    obtain ⟨call, hcall, id, status, horder, hamount, hanswer, hok⟩ :=
      hauthorized.settled hC hstripe
    refine ⟨call, hcall, id, status, customerId, items, hplaced, horder, ?_, hanswer, hok⟩
    exact hamount.trans (totalCents_eq items)
  · intro hstatus
    obtain hfailed | hdeclined := (hI.streams _ _ _ hrows).of_cancelled hstatus
    · exact .inl hfailed
    · exact .inr (hdeclined.settled hC hstripe)

/-- The sale is settled by its PaymentIntent. -/
theorem settledByStripe_sale : ∃ (s : LockState) (rows : List (EventStoreRow .order)),
    (Store.row s.base.shared.db (.eventStore .order (uuidOf 0) 2)).isSome ∧
    HasStream .order s.base.shared.db (uuidOf 0) rows ∧
    SettledByStripe s.base.shared (uuidOf 0) rows := by
  have hstripe : AnsweredByStripe (checkoutSystem.runs allWell sale ⟨fiveInStock, []⟩) :=
    calls_runs (P := fun _ reply => ∃ outcome, reply.answer = StripeAdapter.authorize outcome)
      (fun _ _ => ⟨.intent "psp" "succeeded", rfl⟩) sale fun call hcall => by cases hcall
  obtain ⟨rows, hrows⟩ := (Protocol.sound checkoutSystem_keeps reach_sale).inv.stream .order (uuidOf 0)
  exact ⟨_, rows, by decide +kernel, hrows,
    settledByStripe _ reach_sale.withLocks hstripe (uuidOf 0) rows hrows⟩

end Saganova
