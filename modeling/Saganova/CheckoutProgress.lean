import Saganova.CheckoutStages

/-!
# No checkout is left stuck

Where every command and event has been handled and every outbox row is
published, every order that was asked for is confirmed or cancelled
(`noCheckoutStuck`), with a gateway that answers.

A saga waits for what the command published last for it brings about.  Where
all is handled that command has left its event, which was relayed and has moved
the saga on; so no saga still waits, and the last command of one that has ended
has ended its order.
-/

namespace Saganova

open Concurrency

/-! ## Every run -/

/-- What holds of the services in every reachable state. -/
structure CheckoutSound (s : Shared) : Prop where
  consistent : Consistent s.db
  inv : CheckoutInv s
  prompt : PromptInv s

theorem CheckoutReach.sound {c : Checkout} (h : CheckoutReach c) : CheckoutSound c.shared where
  consistent := (Protocol.sound promptSystem_keeps h.reach).inv
  inv := checkoutInv_of_reach rfl (fun _ _ ht => ht) (fun _ hs => hs) h.reach
  prompt := promptInv_of_reach h.reach

/-- What handling each message has come to. -/
structure ProgressInv (c : Checkout) : Prop where
  sagas : SagaProgress c.shared
  commands : ∀ svc e, (svc, e) ∈ c.commandsHandled → Absorbed c.shared.db svc e
  events : ∀ e ∈ c.eventsHandled, ∀ o n, e.payload.orderId = some o → stageAfter e.type = some n →
    ReachedStage c.shared o n
  outbox : ∀ svc oid, (svc, oid) ∈ c.publishedAt → ∃ row : OutboxRow,
    Store.row c.shared.db (.outbox svc oid) = some row ∧
      Published c.shared row.topic (relayedMessage oid row)

section Step

variable {c : Checkout} {answer : ℕ → (a : Act) → Act.Reply a} {t : Task}

theorem Checkout.grows_run (hdb : Consistent c.shared.db) : Grows c.shared (c.run answer t) :=
  (code_keeps (I := fun _ => True) hdb trivial fun _ _ _ _ _ _ => trivial).1

/-- The sagas after a run, and that none went back. -/
theorem ProgressInv.run_sagas (hc : ProgressInv c) (hsound : CheckoutSound c.shared)
    (hsound' : CheckoutSound (c.run answer t)) (ht : c.Succeeds answer t) :
    SagaProgress (c.run answer t) ∧
      ∀ o n, ReachedStage c.shared o n → ReachedStage (c.run answer t) o n := by
  have hgrow : Grows c.shared (c.run answer t) := Checkout.grows_run hsound.consistent
  by_cases hevent : ∃ r, t = .event r
  · obtain ⟨r, rfl⟩ := hevent
    have hrun : c.run answer (.event r) = handle c.shared (deliveryOf answer r) :=
      run_event ht.answers r c.shared
    rw [hrun] at hgrow hsound' ⊢
    exact ⟨hc.sagas.handle rfl hgrow hsound.prompt hsound'.prompt,
      fun o n h => h.handle hc.sagas rfl⟩
  · have hsame : SameSagas c.shared (c.run answer t) :=
      run_sameSagas hsound.consistent fun r heq => hevent ⟨r, heq⟩
    exact ⟨hc.sagas.same hsame hgrow, fun o n h => hsame.reached.mpr h⟩

/-- What had been handled stays so. -/
theorem ProgressInv.run (hc : ProgressInv c) (hsound : CheckoutSound c.shared)
    (hsound' : CheckoutSound (c.run answer t)) (ht : c.Succeeds answer t) :
    ProgressInv { c with shared := c.run answer t } := by
  have hgrow : Grows c.shared (c.run answer t) := Checkout.grows_run hsound.consistent
  obtain ⟨hsagas, hreached⟩ := hc.run_sagas hsound hsound' ht
  constructor
  · exact hsagas
  · intro svc e he
    exact run_absorbed hsound.consistent (hc.commands svc e he)
  · intro e he o n ho hn
    exact hreached o n (hc.events e he o n ho hn)
  · intro svc oid hmem
    obtain ⟨row, hrow, hpublished⟩ := hc.outbox svc oid hmem
    exact ⟨row, hgrow.outbox hrow, hpublished.grow hgrow⟩

/-- **Handling a message adds what it comes to.** -/
theorem ProgressInv.handle (hc : ProgressInv c) (hsound : CheckoutSound c.shared)
    (hsound' : CheckoutSound (c.run answer t)) (ht : c.Succeeds answer t) :
    ProgressInv (c.handle answer t) := by
  have hrun := hc.run hsound hsound' ht
  cases t with
  | createOrder customerId items correlationId => exact hrun
  | command svc r =>
    refine { hrun with commands := fun svc' e he => ?_ }
    obtain heq | hold := List.mem_cons.mp he
    · obtain ⟨rfl, rfl⟩ := Prod.mk.inj heq
      exact absorbed_of_handled hsound.consistent ht.answers ht.returns
    · exact hrun.commands svc' e hold
  | event r =>
    refine { hrun with events := fun e he o n ho hn => ?_ }
    obtain rfl | hold := List.mem_cons.mp he
    · have hdelivered : Published c.shared r.topic (.event r.value) := ht.ready
      have hreached : ReachedStage (Saganova.handle c.shared (deliveryOf answer r)) o n :=
        reached_of_announced hsound.inv hsound.prompt hc.sagas rfl
          (hsound.inv.events _ _ hdelivered) ho hn
      rw [← run_event ht.answers r c.shared] at hreached
      exact hreached
    · exact hrun.events e hold o n ho hn
  | relay svc oid =>
    refine { hrun with outbox := fun svc' oid' hmem => ?_ }
    obtain heq | hold := List.mem_cons.mp hmem
    · obtain ⟨rfl, rfl⟩ := Prod.mk.inj heq
      obtain ⟨row, hrow⟩ := Option.isSome_iff_exists.mp ht.ready
      have hgrow : Grows c.shared (c.run answer (.relay svc' oid')) :=
        Checkout.grows_run hsound.consistent
      exact ⟨row, hgrow.outbox hrow, published_of_relay hrow⟩
    · exact hrun.outbox svc' oid' hold

end Step

theorem SagaProgress.start {s : Shared} (hdb : OnlyStocked s.db) (htrace : s.trace = []) :
    SagaProgress s := by
  have hrow : ∀ o, sagaRow s o = none := fun o => hdb _ nofun
  have hasked : ∀ type o, ¬ Asked s type o := by
    rintro type o ⟨topic, c, hpublished, -⟩
    exact not_published htrace topic _ hpublished
  constructor
  · intro o r hr
    rw [hrow] at hr
    nomatch hr
  · intro o r hr
    rw [hrow] at hr
    nomatch hr
  · intro o h
    exact absurd h (hasked _ o)
  · intro o h
    exact absurd h (hasked _ o)

theorem progressInv_of_reach {c : Checkout} (h : CheckoutReach c) : ProgressInv c := by
  induction h with
  | start hdb =>
    refine ⟨.start hdb rfl, ?_, ?_, ?_⟩
    · intro svc e he
      nomatch he
    · intro e he
      nomatch he
    · intro svc oid hmem
      nomatch hmem
  | @step c c' h hstep ih =>
    have hsound := h.sound
    have hsound' := (h.step hstep).sound
    cases hstep with
    | handled ht =>
      rw [Checkout.handle_shared] at hsound'
      exact ih.handle hsound hsound' ht
    | unmarked ht => exact ih.run hsound hsound' ht

/-! ## Where nothing is outstanding -/

section Owned

variable {db : Db} {e : CommandEnvelope} {o : Uuid}

/-- A handler that reads a field does something if what it does next is something. -/
theorem field_bind_ne {α : Type} {field' : Option α} {f : α → Handler Unit}
    (h : ∀ a, f a ≠ Pure.pure ()) : (field field' >>= f) ≠ Pure.pure () := by
  cases field' with
  | none => exact nofun
  | some a => exact h a

/-- A command is not foreign to the service that owns it. -/
theorem consumer_order_ne (h : e.type = .createOrder ∨ e.type = .confirmOrder ∨
    e.type = .cancelOrder) : consumer .order e ≠ Pure.pure () := by
  unfold consumer OrderKafkaConsumer.dispatch
  obtain htype | htype | htype := h
  · simp only [htype]
    exact field_bind_ne fun _ => field_bind_ne fun _ => field_bind_ne fun _ => nofun
  · simp only [htype]
    exact field_bind_ne fun _ => field_bind_ne fun _ => nofun
  · simp only [htype]
    exact field_bind_ne fun _ => field_bind_ne fun _ => nofun

theorem consumer_inventory_ne (h : e.type = .reserveStock) :
    consumer .inventory e ≠ Pure.pure () := by
  unfold consumer InventoryKafkaConsumer.dispatch
  simp only [h]
  exact field_bind_ne fun _ => field_bind_ne fun _ => nofun

theorem consumer_payment_ne (h : e.type = .authorizePayment) :
    consumer .payment e ≠ Pure.pure () := by
  unfold consumer PaymentKafkaConsumer.dispatch
  simp only [h]
  exact field_bind_ne fun _ => field_bind_ne fun _ => field_bind_ne fun _ => nofun

theorem Absorbed.created_stream (h : Absorbed db .order e) (htype : e.type = .createOrder)
    (ho : e.payload.orderId = some o) : ∃ rows, HasStream .order db o rows ∧ rows ≠ [] := by
  cases h with
  | created _ ho' _ _ hrows hne =>
    obtain rfl := Option.some.inj (ho.symm.trans ho')
    exact ⟨_, hrows, hne⟩
  | confirmed htype' _ _ _ => nomatch htype.symm.trans htype'
  | cancelled htype' _ _ _ => nomatch htype.symm.trans htype'
  | foreign hpure => exact absurd hpure (consumer_order_ne (.inl htype))

theorem Absorbed.closed_stream (h : Absorbed db .order e)
    (htype : e.type = .confirmOrder ∨ e.type = .cancelOrder) (ho : e.payload.orderId = some o) :
    ∃ rows, ClosedStream .order db o rows := by
  cases h with
  | created htype' _ _ _ _ _ => exact absurd htype (by simp [htype'])
  | confirmed _ ho' _ hclosed =>
    obtain rfl := Option.some.inj (ho.symm.trans ho')
    exact ⟨_, hclosed⟩
  | cancelled _ ho' _ hclosed =>
    obtain rfl := Option.some.inj (ho.symm.trans ho')
    exact ⟨_, hclosed⟩
  | foreign hpure => exact absurd hpure (consumer_order_ne (.inr htype))

theorem Absorbed.reserved_stream (h : Absorbed db .inventory e) (htype : e.type = .reserveStock)
    (ho : e.payload.orderId = some o) : ∃ rows, HasStream .inventory db o rows ∧ rows ≠ [] := by
  cases h with
  | reserved _ ho' _ hrows hne =>
    obtain rfl := Option.some.inj (ho.symm.trans ho')
    exact ⟨_, hrows, hne⟩
  | released htype' _ _ _ => nomatch htype.symm.trans htype'
  | foreign hpure => exact absurd hpure (consumer_inventory_ne htype)

theorem Absorbed.payment_index (h : Absorbed db .payment e) (htype : e.type = .authorizePayment)
    (ho : e.payload.orderId = some o) : ∃ p, Store.row db (.paymentOfOrder o) = some p := by
  cases h with
  | charged hcommand hindex =>
    obtain rfl := Option.some.inj (ho.symm.trans hcommand.orderId)
    exact ⟨_, hindex⟩
  | refunded hcommand _ _ => nomatch htype.symm.trans hcommand.type
  | foreign hpure => exact absurd hpure (consumer_payment_ne htype)

end Owned

section Quiet

variable {c : Checkout} {o : Uuid}

/-- The events of every stream have reached the orchestrator. -/
theorem Quiet.event_handled (hquiet : Quiet c) (hc : ProgressInv c) (hdb : Consistent c.shared.db)
    {svc : Service} {id : String} {r : EventStoreRow svc} {more : List (EventStoreRow svc)}
    (hrows : HasStream svc c.shared.db id (r :: more)) : ∃ e ∈ c.eventsHandled,
      e.type = svc.eventType r.event ∧ e.payload = svc.payload r.event := by
  obtain ⟨rows, oids, hrows', houtbox, -⟩ := hdb.aggregate svc id
  rw [← hrows.unique hrows'] at houtbox
  obtain ⟨oid, -, hrow, -⟩ := List.forall₂_cons_right_iff.mp houtbox.each
  have hpublishedAt := hquiet.outbox svc oid (Option.isSome_iff_exists.mpr ⟨_, hrow⟩)
  obtain ⟨row, hrow', hpublished⟩ := hc.outbox svc oid hpublishedAt
  obtain rfl := Option.some.inj (hrow.symm.trans hrow')
  exact ⟨_, hquiet.events _ _ hpublished, rfl, rfl⟩

/-- The command that was asked for is absorbed by the service that owns it. -/
theorem Quiet.absorbed (hquiet : Quiet c) (hc : ProgressInv c) {type : CommandType}
    (hasked : Asked c.shared type o) (svc : Service) : ∃ e, e.type = type ∧
      e.payload.orderId = some o ∧ Absorbed c.shared.db svc e := by
  obtain ⟨topic, e, hpublished, htype, ho⟩ := hasked
  exact ⟨e, htype, ho, hc.commands svc e (hquiet.commands topic e hpublished svc)⟩

/-- An order that was asked for has a saga. -/
theorem Quiet.started (hquiet : Quiet c) (hc : ProgressInv c) (hsound : CheckoutSound c.shared)
    (hasked : Asked c.shared .createOrder o) : ReachedStage c.shared o 0 := by
  obtain ⟨e, htype, ho, habsorbed⟩ := hquiet.absorbed hc hasked .order
  obtain ⟨rows, hrows, hne⟩ := habsorbed.created_stream htype ho
  obtain ⟨r, more, rfl⟩ := List.exists_cons_of_ne_nil hne
  obtain ⟨e', he', htype', hpayload'⟩ := hquiet.event_handled hc hsound.consistent hrows
  have hevent : ∃ customerId items, r.event = .orderCreated
      { orderId := o, customerId, items, totalCents := OrderAggregate.totalCents items } := by
    cases hsound.inv.streams _ _ _ hrows with
    | created _ hevent => exact ⟨_, _, hevent⟩
    | confirmed _ hevent _ _ _ => exact ⟨_, _, hevent⟩
    | cancelled _ hevent _ _ => exact ⟨_, _, hevent⟩
  obtain ⟨customerId, items, hevent⟩ := hevent
  rw [hevent] at htype' hpayload'
  refine hc.events e' he' o 0 ?_ ?_
  · rw [hpayload']
    rfl
  · rw [htype']
    rfl

/-- Stock that was asked for is reserved or not, and the saga knows. -/
theorem Quiet.past_reservation (hquiet : Quiet c) (hc : ProgressInv c)
    (hsound : CheckoutSound c.shared) (hasked : Asked c.shared .reserveStock o) :
    ReachedStage c.shared o 1 := by
  obtain ⟨e, htype, ho, habsorbed⟩ := hquiet.absorbed hc hasked .inventory
  obtain ⟨rows, hrows, hne⟩ := habsorbed.reserved_stream htype ho
  obtain ⟨r, more, rfl⟩ := List.exists_cons_of_ne_nil hne
  obtain ⟨e', he', htype', hpayload'⟩ := hquiet.event_handled hc hsound.consistent hrows
  cases hsound.inv.streams _ _ _ hrows with
  | reserved _ _ hevent =>
    rw [hevent] at htype' hpayload'
    exact hc.events e' he' o 1 (by rw [hpayload']; rfl) (by rw [htype']; rfl)
  | reservationFailed _ hevent =>
    rw [hevent] at htype' hpayload'
    exact hc.events e' he' o 1 (by rw [hpayload']; rfl) (by rw [htype']; rfl)

/-- A payment that was asked for is authorized or declined, and the saga knows. -/
theorem Quiet.past_payment (hquiet : Quiet c) (hc : ProgressInv c)
    (hsound : CheckoutSound c.shared) (hasked : Asked c.shared .authorizePayment o) :
    ReachedStage c.shared o 2 := by
  obtain ⟨e, htype, ho, habsorbed⟩ := hquiet.absorbed hc hasked .payment
  obtain ⟨p, hindex⟩ := habsorbed.payment_index htype ho
  obtain ⟨rows, hrows, hne, horder⟩ := (paymentOf_iff hsound.consistent).mpr hindex
  obtain ⟨r, more, rfl⟩ := List.exists_cons_of_ne_nil hne
  obtain ⟨e', he', htype', hpayload'⟩ := hquiet.event_handled hc hsound.consistent hrows
  cases hsound.inv.streams _ _ _ hrows with
  | authorized _ _ _ hevent =>
    rw [replay_one, hevent] at horder
    rw [hevent] at htype' hpayload'
    exact hc.events e' he' o 2 (by rw [hpayload', ← horder]; rfl) (by rw [htype']; rfl)
  | declined _ _ hevent =>
    rw [replay_one, hevent] at horder
    rw [hevent] at htype' hpayload'
    exact hc.events e' he' o 2 (by rw [hpayload', ← horder]; rfl) (by rw [htype']; rfl)

/-- A saga that has ended has ended its order. -/
theorem Quiet.closed (hquiet : Quiet c) (hc : ProgressInv c) {type : CommandType}
    (hasked : Asked c.shared type o) (htype : type = .confirmOrder ∨ type = .cancelOrder) :
    ∃ rows, ClosedStream .order c.shared.db o rows := by
  obtain ⟨e, rfl, ho, habsorbed⟩ := hquiet.absorbed hc hasked .order
  exact habsorbed.closed_stream htype ho

end Quiet

/-- **No checkout is left stuck.**  Where nothing is outstanding, every order
whose CreateOrder command was published is CONFIRMED or CANCELLED. -/
theorem noCheckoutStuck (c : Checkout) (h : CheckoutReach c) (hquiet : Quiet c) (o : Uuid)
    (topic : Topic) (e : CommandEnvelope) (hpublished : Published c.shared topic (.command e))
    (htype : e.type = .createOrder) (ho : e.payload.orderId = some o) :
    ∃ rows, HasStream .order c.shared.db o rows ∧
      ((replay .order rows).status = .confirmed ∨ (replay .order rows).status = .cancelled) := by
  have hc := progressInv_of_reach h
  obtain ⟨r, hr, -⟩ := hquiet.started hc h.sound ⟨topic, e, hpublished, htype, ho⟩
  have hasked := hc.sagas.awaited o r hr
  -- a saga past its stage is another row than this one
  have hstage : ∀ {n}, ReachedStage c.shared o n → n ≤ r.stage := by
    rintro n ⟨r', hr', hn⟩
    obtain rfl := Option.some.inj (hr.symm.trans hr')
    exact hn
  have hfinal : r.awaits = .confirmOrder ∨ r.awaits = .cancelOrder := by
    by_cases hcompleted : r.status = .completed
    · exact .inl (if_pos hcompleted)
    by_cases hcompensated : r.status = .compensated
    · exact .inr ((if_neg hcompleted).trans (if_pos hcompensated))
    exfalso
    have hawaits : r.awaits = if r.currentStepIndex = 0 then .reserveStock else .authorizePayment :=
      (if_neg hcompleted).trans (if_neg hcompensated)
    have hopen : r.stage = r.currentStepIndex :=
      SagaInstanceRow.stage_open (not_or.mpr ⟨hcompleted, hcompensated⟩)
    have hindex := hc.sagas.index o r hr
    by_cases hzero : r.currentStepIndex = 0
    · rw [hawaits, if_pos hzero] at hasked
      have hpast := hstage (hquiet.past_reservation hc h.sound hasked)
      omega
    · rw [hawaits, if_neg hzero] at hasked
      have hpast := hstage (hquiet.past_payment hc h.sound hasked)
      omega
  obtain ⟨rows, hrows, -, hclosed⟩ := hquiet.closed hc hasked hfinal
  exact ⟨rows, hrows, hclosed.symm⟩

/-! ## An order that cannot be filled -/

section Unfillable

/-- As `allWell`; what is saved gets the outbox row `oid`. -/
def answering (oid : Uuid) (k : ℕ) : (a : Act) → Act.Reply a
  | .randomUUID => uuidOf k
  | .randomUUIDs => fun _ => oid
  | a => allWell k a

def services : List Service := [.order, .payment, .inventory]

theorem mem_services (svc : Service) : svc ∈ services := by
  cases svc <;> decide

theorem answers_answering {oid : Uuid} {db : Db}
    (h : ∀ svc ∈ services, Store.row db (.outbox svc oid) = none) : Answers (answering oid) db where
  authorize := fun _ _ => ⟨_, rfl⟩
  refund := fun _ _ _ _ => ⟨_, rfl⟩
  randomUUID := fun _ svc _ => h svc (mem_services svc)
  uuid_ne := uuidOf_ne_empty
  publish := fun _ _ _ _ => rfl
  commitOffsets := fun _ _ _ _ => rfl

instance (c : Checkout) (t : Task) : Decidable (c.Ready t) :=
  match t with
  | .relay svc oid =>
    inferInstanceAs (Decidable ((Store.row c.shared.db (.outbox svc oid)).isSome = true))
  | .command svc r => inferInstanceAs (Decidable (Delivered c.shared (.command svc r)))
  | .event r => inferInstanceAs (Decidable (Delivered c.shared (.event r)))
  | .createOrder _ _ _ => .isTrue trivial

/-- One task after another, each with the id of the outbox row it may save. -/
def Checkout.handleAll (c : Checkout) : List (Uuid × Task) → Checkout
  | [] => c
  | (oid, t) :: ts => (c.handle (answering oid) t).handleAll ts

/-- Each of them succeeds. -/
def Checkout.SucceedAll (c : Checkout) : List (Uuid × Task) → Prop
  | [] => True
  | (oid, t) :: ts => (c.Ready t ∧ (∀ svc ∈ services, Store.row c.shared.db (.outbox svc oid) = none) ∧
      (Proc.run (answering oid) t (code t) c.shared).1.toBool = true) ∧
    (c.handle (answering oid) t).SucceedAll ts

instance decidableSucceedAll : (ts : List (Uuid × Task)) → (c : Checkout) →
    Decidable (c.SucceedAll ts)
  | [], _ => .isTrue trivial
  | (oid, t) :: ts, c =>
    have := decidableSucceedAll ts (c.handle (answering oid) t)
    inferInstanceAs (Decidable ((c.Ready t ∧
      (∀ svc ∈ services, Store.row c.shared.db (.outbox svc oid) = none) ∧
      (Proc.run (answering oid) t (code t) c.shared).1.toBool = true) ∧
      (c.handle (answering oid) t).SucceedAll ts))

theorem CheckoutReach.handleAll {c : Checkout} (h : CheckoutReach c) (ts : List (Uuid × Task))
    (hts : c.SucceedAll ts) : CheckoutReach (c.handleAll ts) := by
  induction ts generalizing c with
  | nil => exact h
  | cons p ts ih =>
    obtain ⟨oid, t⟩ := p
    obtain ⟨⟨hready, hfresh, hreturns⟩, hrest⟩ := hts
    exact ih (h.step (.handled ⟨hready, answers_answering hfresh, ok_of_toBool hreturns⟩)) hrest

/-- The message was handled by all it is for. -/
def Checkout.Handled (c : Checkout) : Message → Prop
  | .command e => ∀ svc ∈ services, (svc, e) ∈ c.commandsHandled
  | .event e => e ∈ c.eventsHandled

instance (c : Checkout) (message : Message) : Decidable (c.Handled message) :=
  match message with
  | .command e => inferInstanceAs (Decidable (∀ svc ∈ services, (svc, e) ∈ c.commandsHandled))
  | .event e => inferInstanceAs (Decidable (e ∈ c.eventsHandled))

/-- No row, or one that is published, or of another table. -/
def Checkout.NotPending (c : Checkout) : Key → Prop
  | .outbox svc oid => (svc, oid) ∈ c.publishedAt
  | _ => True

instance (c : Checkout) (k : Key) : Decidable (c.NotPending k) :=
  match k with
  | .outbox svc oid => inferInstanceAs (Decidable ((svc, oid) ∈ c.publishedAt))
  | .eventStore _ _ _ | .projection _ _ | .paymentOfOrder _ | .stockLevel _ | .sagaInstance _ =>
    .isTrue trivial

/-- Quiet, by looking through the messages and the rows there are. -/
theorem quiet_of {c : Checkout} (hmessages : ∀ p ∈ publications c.shared, c.Handled p.2)
    (hrows : ∀ k ∈ c.shared.db.map Sigma.fst, c.NotPending k) : Quiet c where
  commands topic e hpublished svc :=
    hmessages (topic, .command e) (published_iff.mp hpublished) svc (mem_services svc)
  events topic e hpublished := hmessages (topic, .event e) (published_iff.mp hpublished)
  outbox svc oid hsome := by
    obtain ⟨row, hrow⟩ := Option.isSome_iff_exists.mp hsome
    exact hrows (.outbox svc oid) (Store.mem_keys_of_row hrow)

/-- Two of what is not in stock, until nothing is outstanding. -/
def unfillable : List (Uuid × Task) :=
  let items : List OrderLineItem := [{ sku := "A", qty := 2, unitPriceCents := 500 }]
  let o := uuidOf 0
  let created := saleCommand 0 (uuidOf 1) .createOrder
    { orderId := some o, customerId := some customer₁, items := some items }
  let reserve := saleCommand 1 (uuidOf 11) .reserveStock
    { orderId := some o, lines := some [{ sku := "A", qty := 2 }] }
  let reason := "Saga failed at step \"RESERVE_INVENTORY\""
  let cancel := saleCommand 2 (uuidOf 29) .cancelOrder { orderId := some o, reason := some reason }
  -- the rows of the three events, and an id that nothing gets
  let (placed, refused, closed, spare) := (rowId 0 0, rowId 1 0, rowId 2 0, rowId 3 0)
  [(placed, .createOrder customer₁ items "c"),
    (placed, .command .order created), (spare, .command .payment created),
    (spare, .command .inventory created), (spare, .relay .order placed),
    (spare, saleEvent .orderEvents placed .orderCreated o
      { orderId := some o, customerId := some customer₁, items := some items
        totalCents := some 1000 }),
    (spare, .command .order reserve), (spare, .command .payment reserve),
    (refused, .command .inventory reserve), (spare, .relay .inventory refused),
    (spare, saleEvent .inventoryEvents refused .inventoryReservationFailed o
      { orderId := some o, sku := some "A", reason := some "Unknown SKU \"A\"" }),
    (closed, .command .order cancel), (spare, .command .payment cancel),
    (spare, .command .inventory cancel), (spare, .relay .order closed),
    (spare, saleEvent .orderEvents closed .orderCancelled o
      { orderId := some o, reason := some reason })]

def afterUnfillable : Checkout := Checkout.handleAll ⟨⟨[], []⟩, [], [], []⟩ unfillable

/-- The order is cancelled when nothing is outstanding. -/
theorem noCheckoutStuck_unfillable : ∃ rows,
    HasStream .order afterUnfillable.shared.db (uuidOf 0) rows ∧
    ((replay .order rows).status = .confirmed ∨ (replay .order rows).status = .cancelled) := by
  have hreach : CheckoutReach afterUnfillable :=
    CheckoutReach.handleAll (.start fun _ _ => rfl) unfillable (by decide +kernel)
  have hquiet : Quiet afterUnfillable := quiet_of (by decide +kernel) (by decide +kernel)
  exact noCheckoutStuck _ hreach hquiet (uuidOf 0) .sagaCommands
    { id := uuidOf 1, type := .createOrder, version := eventEnvelopeVersion, correlationId := "c"
      issuedAt := "t", payload :=
        { orderId := some (uuidOf 0), customerId := some customer₁
          items := some [{ sku := "A", qty := 2, unitPriceCents := 500 }] } }
    (by decide +kernel) rfl rfl

end Unfillable

end Saganova
