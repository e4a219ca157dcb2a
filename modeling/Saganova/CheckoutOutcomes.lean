import Saganova.CheckoutDrains
import Saganova.OrderQueries
import Saganova.PaymentGateways

/-!
# How checkouts end

Where nothing is outstanding (`Quiet`), the saga of every order that was asked
for is at a final phase, and the four services agree on it (`endsAgree`): what
the gateway answers, what the order service answers, the reservation and the
payment.

The stock counters follow (`stockAtRest`).  They can be read off the order
service's table: what is held is what was ordered, of every order but those
cancelled for their reservation.  No event gives stock back, so an order whose
payment was declined still holds its lines.
-/

namespace Saganova

open Concurrency

/-! ## The end of a checkout -/

namespace CheckoutPhase

/-- The order's status once the saga's last command is handled. -/
def orderStatus : CheckoutPhase → OrderStatus
  | .reserving | .charging => .created
  | .completed => .confirmed
  | .unreserved | .declined => .cancelled

/-- The command that the saga published last. -/
def awaits : CheckoutPhase → CommandType
  | .reserving => .reserveStock
  | .charging => .authorizePayment
  | .completed => .confirmOrder
  | .unreserved | .declined => .cancelOrder

def stage : CheckoutPhase → ℕ
  | .reserving => 0
  | .charging => 1
  | .completed | .unreserved | .declined => 2

/-- The reason that the order is cancelled with. -/
def cancelReason (phase : CheckoutPhase) : Option String :=
  phase.failedStep.map fun step => s!"Saga failed at step \"{step}\""

end CheckoutPhase

/-- What every service says of a checkout that has ended. -/
structure EndedAt (s : Shared) (o : Uuid) (phase : CheckoutPhase) (items : List OrderLineItem)
    (result : OrderStatusResult) (row : OrderProjectionRow) : Prop where
  final : result.Final
  placed : Placed s o row.customerId items
  /-- the gateway's answer -/
  status : OrdersService.getOrderStatus (sagasResponse none s.db o) o = .ok result
  shows : result.Shows o phase
  /-- the order service's answer -/
  order : GetOrderByIdHandler.execute s.db o = .ok row
  orderStatus : row.status = phase.orderStatus
  orderItems : row.items = items
  total : (row.totalCents : Num) = (items.map fun i => i.qty * i.unitPriceCents).sum
  cancelReason : row.cancelReason = phase.cancelReason
  /-- stock and payment -/
  held : phase ≠ .unreserved → HeldFor s o items
  paid : phase = .completed → ∃ p, row.paymentId = some p ∧ PaidBy s o p items
  declined : phase = .declined → ∃ p, DeclinedBy s o p
  unpaid : phase = .unreserved → NotReserved s o ∧ ∀ p, ¬ PaymentOf s.db o p

theorem CheckoutReach.query {c : Checkout} (h : CheckoutReach c) : QueryInv c.shared :=
  queryInv_of_reach rfl (fun _ _ ht => ht) (fun _ hs => hs) h.reach

section Quiet

variable {c : Checkout} {o : Uuid}

theorem SagaInstanceRow.Stands.awaits {row : SagaInstanceRow} {phase : CheckoutPhase}
    (h : row.Stands phase) : row.awaits = phase.awaits := by
  unfold SagaInstanceRow.awaits
  rw [h.status, h.index]
  cases phase <;> rfl

theorem SagaInstanceRow.Stands.stage {row : SagaInstanceRow} {phase : CheckoutPhase}
    (h : row.Stands phase) : row.stage = phase.stage := by
  unfold SagaInstanceRow.stage
  rw [h.status, h.index]
  cases phase <;> rfl

/-- Where nothing is outstanding, the saga of an order has ended, and so has the order. -/
theorem Quiet.ended (hquiet : Quiet c) (h : CheckoutReach c) (hasked : Asked c.shared .createOrder o) :
    ∃ row phase rows, sagaRow c.shared o = some row ∧ row.Stands phase ∧ phase.Rests c.shared o ∧
      phase.sagaStatus ≠ .inProgress ∧ ClosedStream .order c.shared.db o rows := by
  have hc := progressInv_of_reach h
  obtain ⟨row, hrow, -⟩ := hquiet.started hc h.sound hasked
  obtain ⟨phase, hstands, hrests⟩ := h.query.rows o row hrow
  have hawaited := hc.sagas.awaited o row hrow
  -- a saga past its stage is another row than this one
  have hstage : ∀ {n}, ReachedStage c.shared o n → n ≤ row.stage := by
    rintro n ⟨row', hrow', hn⟩
    obtain rfl := Option.some.inj (hrow.symm.trans hrow')
    exact hn
  rw [hstands.awaits] at hawaited
  rw [hstands.stage] at hstage
  have hclosed : ∀ {type}, Asked c.shared type o → type = .confirmOrder ∨ type = .cancelOrder →
      ∃ rows, ClosedStream .order c.shared.db o rows := fun hasked htype =>
    hquiet.closed hc hasked htype
  cases phase with
  | reserving => exact absurd (hstage (hquiet.past_reservation hc h.sound hawaited)) (by decide)
  | charging => exact absurd (hstage (hquiet.past_payment hc h.sound hawaited)) (by decide)
  | completed =>
    obtain ⟨rows, hrows⟩ := hclosed hawaited (.inl rfl)
    exact ⟨row, _, rows, hrow, hstands, hrests, by simp [CheckoutPhase.sagaStatus], hrows⟩
  | unreserved =>
    obtain ⟨rows, hrows⟩ := hclosed hawaited (.inr rfl)
    exact ⟨row, _, rows, hrow, hstands, hrests, by simp [CheckoutPhase.sagaStatus], hrows⟩
  | declined =>
    obtain ⟨rows, hrows⟩ := hclosed hawaited (.inr rfl)
    exact ⟨row, _, rows, hrow, hstands, hrests, by simp [CheckoutPhase.sagaStatus], hrows⟩

/-- The reason names the step that the phase failed at. -/
theorem ReasonTrue.phase {s : Shared} {phase : CheckoutPhase} {reason : String}
    (h : ReasonTrue s o reason) (hrests : phase.Rests s o) (hI : CheckoutInv s)
    (hdb : Consistent s.db) (hfinal : phase.sagaStatus ≠ .inProgress) :
    phase.orderStatus = .cancelled ∧ phase.cancelReason = some reason := by
  obtain ⟨step, rfl, hfailed⟩ := h
  cases hfailed with
  | unreserved hfailed =>
    obtain rfl : CheckoutPhase.unreserved = phase :=
      hrests.agree (show CheckoutPhase.unreserved.Rests s o from hfailed) hI hdb hfinal
        (by simp [CheckoutPhase.sagaStatus])
    exact ⟨rfl, rfl⟩
  | declined hdeclined =>
    obtain rfl : CheckoutPhase.declined = phase :=
      hrests.agree (show CheckoutPhase.declined.Rests s o from hdeclined) hI hdb hfinal
        (by simp [CheckoutPhase.sagaStatus])
    exact ⟨rfl, rfl⟩

/-- The end of an order is the end of its saga. -/
theorem OrderEnd.phase {s : Shared} {phase : CheckoutPhase} {items : List OrderLineItem}
    {status : OrderStatus} {paymentId : Option Uuid} {reason : Option String}
    (h : OrderEnd s o items status paymentId reason) (hrests : phase.Rests s o)
    (hI : CheckoutInv s) (hdb : Consistent s.db) (hfinal : phase.sagaStatus ≠ .inProgress)
    (hclosed : status = .cancelled ∨ status = .confirmed) :
    status = phase.orderStatus ∧ reason = phase.cancelReason ∧
      (phase = .completed → ∃ p, paymentId = some p ∧ PaidBy s o p items) := by
  cases h with
  | created => simp at hclosed
  | cancelled hreason =>
    obtain ⟨hstatus, hreason⟩ := hreason.phase hrests hI hdb hfinal
    refine ⟨hstatus.symm, hreason.symm, ?_⟩
    rintro rfl
    cases hstatus
  | @confirmed p hpaid hheld =>
    obtain rfl : CheckoutPhase.completed = phase := by
      obtain ⟨rows, hrows, hstatus, ho, -⟩ := hpaid
      cases hI.streams _ _ _ hrows with
      | nil => cases hstatus
      | declined _ _ hevent =>
        rw [replay_one, hevent] at hstatus
        cases hstatus
      | authorized hplaced _ _ hevent =>
        have hfirst := hrows.first
        rw [hevent] at hfirst
        rw [replay_one, hevent] at ho
        obtain rfl := ho
        have hrests' : CheckoutPhase.completed.Rests s _ := ⟨_, _, p, hplaced, _, hfirst⟩
        exact hrests.agree hrests' hI hdb hfinal (by simp [CheckoutPhase.sagaStatus])
    exact ⟨rfl, rfl, fun _ => ⟨p, rfl, hpaid⟩⟩

/-- What an order holds, unless it could not be reserved. -/
theorem CheckoutPhase.Holds.held {s : Shared} {phase : CheckoutPhase} {customerId : Uuid}
    {items : List OrderLineItem} (h : phase.Holds s o) (hdrawn : DrawnOnce s)
    (hplaced : Placed s o customerId items) (hfinal : phase.sagaStatus ≠ .inProgress)
    (hne : phase ≠ .unreserved) : HeldFor s o items := by
  cases phase with
  | reserving => exact absurd rfl hfinal
  | charging => exact absurd rfl hfinal
  | unreserved => exact absurd rfl hne
  | completed =>
    obtain ⟨_, items', _, hplaced', hheld, -⟩ := h
    rwa [hplaced.unique hdrawn hplaced']
  | declined =>
    obtain ⟨_, items', _, hplaced', hheld, -⟩ := h
    rwa [hplaced.unique hdrawn hplaced']

theorem Quiet.endedAt (hquiet : Quiet c) (h : CheckoutReach c) (hdrawn : DrawnOnce c.shared)
    (hasked : Asked c.shared .createOrder o) :
    ∃ phase items result row, EndedAt c.shared o phase items result row := by
  obtain ⟨saga, phase, rows, hsaga, hstands, hrests, hfinal, hrows, hne, hclosed⟩ :=
    hquiet.ended h hasked
  have hI := h.sound.inv
  have hdb := h.sound.consistent
  have hholds := hrests.holds hI hdb hdrawn
  obtain ⟨row, hrow, -, hstatus, -⟩ := (hdb.projected hrows).some_of_ne hne
  have horder : GetOrderByIdHandler.execute c.shared.db o = .ok row := by
    unfold GetOrderByIdHandler.execute
    rw [hrow]
  have htrue := orderTrue_of_inv (o := o) h.query hI hdb hdrawn
  rw [horder] at htrue
  obtain ⟨-, items, hplaced, hitems, htotal, hend⟩ := htrue
  obtain ⟨horderStatus, hreason, hpaid⟩ := hend.phase hrests hI hdb hfinal (by rwa [hstatus])
  have hanswer : SagasController.getStatus c.shared.db o = .ok
      { orderId := o, sagaStatus := saga.status
        currentStep := SagasController.stepName saga.currentStepIndex, history := saga.history } := by
    unfold SagasController.getStatus
    rw [show Store.row c.shared.db (.sagaInstance o) = some saga from hsaga]
  refine ⟨phase, items, _, row, ?_, hplaced, getOrderStatus_ok.mpr hanswer, hstands.shows, horder,
    horderStatus, hitems, htotal, hreason, fun hne => hholds.held hdrawn hplaced hfinal hne, hpaid,
    ?_, ?_⟩
  · show saga.status = .completed ∨ saga.status = .compensated
    rw [hstands.status]
    cases phase with
    | reserving => exact absurd rfl hfinal
    | charging => exact absurd rfl hfinal
    | completed => exact .inl rfl
    | unreserved => exact .inr rfl
    | declined => exact .inr rfl
  · rintro rfl
    obtain ⟨_, _, p, -, -, hdeclined, -⟩ := hholds
    exact ⟨p, hdeclined⟩
  · rintro rfl
    exact hholds

end Quiet

/-- **At rest, all services agree on how each checkout ended.** -/
theorem endsAgree (c : Checkout) (h : CheckoutReach c) (hquiet : Quiet c)
    (hdrawn : DrawnOnce c.shared) (o : Uuid) (hasked : Asked c.shared .createOrder o) :
    ∃ phase items result row, EndedAt c.shared o phase items result row :=
  hquiet.endedAt h hdrawn hasked

section AtRest

/-- The mock adapter. -/
def mockProvider (params : AuthorizeParams) : AuthorizeResult :=
  MockStripeAdapter.authorize params row₁

/-- The three requests, and all that they lead to. -/
def atRest : Checkout := afterRequests.drain mockProvider afterRequests.work

theorem reach_atRest : CheckoutReach atRest :=
  reach_drain _ reach_afterRequests roomy_afterRequests

theorem quiet_atRest : Quiet atRest := quiet_drain mockProvider reach_afterRequests roomy_afterRequests

theorem drawnOnce_atRest : DrawnOnce atRest.shared := by
  have hdraws : ∀ p ∈ draws afterRequests.shared, ∀ q ∈ draws afterRequests.shared,
      p.2 = q.2 → p.1 = q.1 := by decide +kernel
  intro t t' id ht ht' h h'
  exact hdraws _ (mem_draws (draws_drain _ reach_afterRequests roomy_afterRequests ht h)) _
    (mem_draws (draws_drain _ reach_afterRequests roomy_afterRequests ht' h')) rfl

/-- The orders of the three requests. -/
theorem asked_atRest {o : Uuid} (h : o ∈ ordersRequested afterRequests.shared) :
    Asked atRest.shared .createOrder o := by
  have hasked : Asked afterRequests.shared .createOrder o :=
    (asked_iff reach_afterRequests.sound.prompt).mpr (mem_ordersRequested.mp h)
  exact hasked.grow (grows_drain _ reach_afterRequests roomy_afterRequests)

/-- The first of the three requests comes to an end. -/
theorem endsAgree_atRest : ∃ phase items result row,
    EndedAt atRest.shared (uuidOf 0) phase items result row :=
  endsAgree _ reach_atRest quiet_atRest drawnOnce_atRest (uuidOf 0) (asked_atRest (by decide +kernel))

end AtRest

/-! ## The stock at rest -/

/-- The runs of the composed system, a handler at a time, over the stock table `db`. -/
inductive CheckoutFrom (db : Db) : Checkout → Prop
  | start : CheckoutFrom db ⟨⟨db, []⟩, [], [], []⟩
  | step {c c' : Checkout} : CheckoutFrom db c → CheckoutStep c c' → CheckoutFrom db c'

/-- Every order asks for positive whole quantities. -/
def AskedWhole (s : Shared) : Prop :=
  ∀ o customerId items, Placed s o customerId items → PositiveLines (reservationLines items)

/-- The order of a row of `order_projection`. -/
def Key.ordered : Key → Option Uuid
  | .projection .order o => some o
  | _ => none

/-- The order of an event of the inventory. -/
def Key.stocked : Key → Option Uuid
  | .eventStore .inventory o _ => some o
  | _ => none

/-- The orders of the order service's table. -/
def orderTable (db : Db) : Finset Uuid := (db.filterMap fun entry => entry.1.ordered).toFinset

/-- What an order has taken of a SKU, by its row: everything it asked for,
unless it was cancelled for its reservation. -/
def takenBy (db : Db) (o : Uuid) (sku : String) : Num :=
  match Store.row db (.projection .order o) with
  | none => 0
  | some (row : OrderProjectionRow) =>
    if row.cancelReason = some "Saga failed at step \"RESERVE_INVENTORY\"" then 0
    else qtyOf sku (reservationLines row.items)

section Stock

variable {db : Db} {c : Checkout}

theorem CheckoutFrom.reach (h : CheckoutFrom db c) (hdb : OnlyStocked db) : CheckoutReach c := by
  induction h with
  | start => exact .start hdb
  | step _ hstep ih => exact ih.step hstep

theorem CheckoutFrom.handleAll (h : CheckoutFrom db c)
    (ts : List (Uuid × Task)) (hts : c.SucceedAll ts) : CheckoutFrom db (c.handleAll ts) := by
  induction ts generalizing c with
  | nil => exact h
  | cons p ts ih =>
    obtain ⟨oid, t⟩ := p
    obtain ⟨⟨hready, hfresh, hreturns⟩, hrest⟩ := hts
    exact ih (h.step (.handled ⟨hready, answers_answering hfresh, ok_of_toBool hreturns⟩)) hrest

/-- What a step runs. -/
theorem CheckoutStep.shared_eq {c c' : Checkout} (h : CheckoutStep c c') :
    ∃ answer t, c.Succeeds answer t ∧ c'.shared = c.run answer t := by
  cases h with
  | handled ht => exact ⟨_, _, ht, Checkout.handle_shared _ _ _⟩
  | unmarked ht => exact ⟨_, _, ht, rfl⟩

theorem AskedWhole.before {s s' : Shared} (h : AskedWhole s') (hgrow : Grows s s') : AskedWhole s :=
  fun o customerId items hplaced => h o customerId items (hplaced.grow hgrow)

/-- A command of the composed system asks for what was placed. -/
theorem asksPositive_of_delivered {s : Shared} {t : Task} (hI : CheckoutInv s)
    (hwhole : AskedWhole s) (ht : Delivered s t) : AsksPositive t := by
  rintro ⟨topic, partition, offset, ⟨id, type, version, correlationId, issuedAt, payload⟩⟩ rfl
    lines hlines
  have hcommand := hI.commands _ _ ht
  cases hcommand with
  | createOrder => cases hlines
  | reserveStock hplaced =>
    obtain rfl := Option.some.inj hlines
    exact hwhole _ _ _ hplaced
  | authorizePayment => cases hlines
  | confirmOrder => cases hlines
  | cancelOrder => cases hlines

/-- The ledger holds in every run of the composed system. -/
theorem ledger_of_from (h : CheckoutFrom db c) (hdb : OnlyStocked db)
    (hwhole : AskedWhole c.shared) : Ledger db c.shared := by
  induction h with
  | start => exact .fresh hdb.fresh
  | @step c c' h hstep ih =>
    obtain ⟨answer, t, ht, hrun⟩ := hstep.shared_eq
    have hsound := (h.reach hdb).sound
    have hgrow : Grows c.shared (c.run answer t) := Checkout.grows_run hsound.consistent
    rw [hrun] at hwhole ⊢
    have hpositive : AsksPositive t :=
      asksPositive_of_delivered hsound.inv (hwhole.before hgrow) ht.ready.delivered
    exact (code_keeps (I := Ledger db) hsound.consistent (ih (hwhole.before hgrow))
      fun seen s s' hdb hledger hstep => hledger.step hdb hpositive hstep).2

/-- Every counter is what it was at the start and what is held now. -/
theorem Ledger.qtyReserved_eq {s : Shared} (h : Ledger db s) (hdb : Consistent s.db) (sku : String) :
    (qtyReserved s.db sku : Num) = qtyReserved db sku + totalHeld s.db sku := by
  unfold qtyReserved
  cases hstart : stockLevel db sku with
  | some row =>
    obtain ⟨row', hrow', -, hreserved⟩ := h.balance.level sku row hstart
    rw [hrow']
    exact hreserved
  | none =>
    have hnone := h.balance.unknown sku hstart
    have hheld : totalHeld s.db sku = 0 := by
      refine Finset.sum_eq_zero fun o _ => ?_
      obtain ⟨rows, hrows⟩ := hdb.stream .inventory o
      rw [heldBy_eq hrows]
      exact qtyOf_eq_zero fun line hline heq => h.known o rows hrows line hline (heq ▸ hnone)
    rw [hnone, hheld, add_zero]

/-- The orders of the table are those with a row. -/
theorem mem_orderTable {o : Uuid} :
    o ∈ orderTable db ↔ (Store.row db (.projection .order o)).isSome := by
  refine mem_filterMap_keys.trans ⟨?_, fun h => ⟨_, h, rfl⟩⟩
  rintro ⟨k, hrow, hsome⟩
  unfold Key.ordered at hsome
  split at hsome
  · obtain rfl := Option.some.inj hsome
    exact hrow
  · cases hsome

/-- An order that the inventory has events of has a stream. -/
theorem HasStream.ne_nil_of_mem {o : Uuid} {rows : List (EventStoreRow .inventory)}
    (h : HasStream .inventory db o rows) (ho : o ∈ inventoryOrders db) : rows ≠ [] := by
  have hkeys : inventoryOrders db = (db.filterMap fun entry => entry.1.stocked).toFinset := rfl
  rw [hkeys, mem_filterMap_keys] at ho
  obtain ⟨k, hrow, hsome⟩ := ho
  unfold Key.stocked at hsome
  split at hsome
  · rename_i n
    obtain rfl := Option.some.inj hsome
    rintro rfl
    cases n with
    | zero =>
      rw [h.1] at hrow
      cases hrow
    | succ n =>
      rw [h.2 n] at hrow
      cases hrow
  · cases hsome

section Row

variable {s : Shared} {o : Uuid}

/-- An order whose stock was asked for was placed. -/
theorem Asked.placed (h : Asked s .reserveStock o) (hI : CheckoutInv s) :
    ∃ customerId items, Placed s o customerId items := by
  obtain ⟨topic, ⟨id, type, version, correlationId, issuedAt, payload⟩, hpublished, rfl, ho⟩ := h
  cases hI.commands topic _ hpublished with
  | reserveStock hplaced =>
    obtain rfl := Option.some.inj ho
    exact ⟨_, _, hplaced⟩

theorem Placed.asked {customerId : Uuid} {items : List OrderLineItem}
    (h : Placed s o customerId items) : Asked s .createOrder o := by
  obtain ⟨-, c, hpublished, htype, hpayload⟩ := h
  exact ⟨_, c, hpublished, htype, by rw [hpayload]⟩

/-- An order of the table was asked for. -/
theorem asked_of_orderTable (h : o ∈ orderTable s.db) (hI : CheckoutInv s) (hdb : Consistent s.db) :
    Asked s .createOrder o := by
  obtain ⟨rows, hrows⟩ := hdb.stream .order o
  cases hI.streams _ _ _ hrows with
  | nil =>
    rw [mem_orderTable, (hdb.projected hrows).none_of_nil rfl] at h
    cases h
  | created hplaced _ => exact hplaced.asked
  | confirmed hplaced _ _ _ _ => exact hplaced.asked
  | cancelled hplaced _ _ _ => exact hplaced.asked

/-- So was an order that the inventory has events of. -/
theorem asked_of_inventory {r : EventStoreRow .inventory} {more : List (EventStoreRow .inventory)}
    (h : HasStream .inventory s.db o (r :: more)) (hI : CheckoutInv s) :
    Asked s .createOrder o := by
  obtain ⟨customerId, items, hplaced⟩ := (h.first.asked_reserveStock hI).placed hI
  exact hplaced.asked

theorem EndedAt.row_eq {phase : CheckoutPhase} {items : List OrderLineItem}
    {result : OrderStatusResult} {row : OrderProjectionRow}
    (h : EndedAt s o phase items result row) : Store.row s.db (.projection .order o) = some row := by
  have horder := h.order
  unfold GetOrderByIdHandler.execute at horder
  generalize (Store.row s.db (.projection .order o) : Option OrderProjectionRow) = found at horder ⊢
  cases found with
  | none => cases horder
  | some row' => exact congrArg some (Except.ok.inj horder)

/-- At the end of a checkout, its row shows what it holds. -/
theorem EndedAt.heldBy_eq {phase : CheckoutPhase} {items : List OrderLineItem}
    {result : OrderStatusResult} {row : OrderProjectionRow} (h : EndedAt s o phase items result row)
    (hI : CheckoutInv s) (sku : String) : heldBy s.db o sku = takenBy s.db o sku := by
  have htaken : takenBy s.db o sku =
      if phase = .unreserved then 0 else qtyOf sku (reservationLines items) := by
    unfold takenBy
    rw [h.row_eq]
    simp only [h.cancelReason, h.orderItems]
    cases phase <;> rfl
  rw [htaken]
  split
  · rename_i hphase
    obtain ⟨⟨rows, hrows, hstatus⟩, -⟩ := h.unpaid hphase
    rw [Saganova.heldBy_eq hrows]
    cases hI.streams _ _ _ hrows with
    | nil => cases hstatus
    | reserved _ _ hevent =>
      rw [replay_one, hevent] at hstatus
      cases hstatus
    | reservationFailed _ hevent =>
      rw [eventsOf, List.map_cons, List.map_nil, hevent]
      rfl
  · rename_i hphase
    obtain ⟨rows, hrows, hstatus, hlines⟩ := h.held hphase
    rw [Saganova.heldBy_eq hrows]
    cases hI.streams _ _ _ hrows with
    | nil => cases hstatus
    | reserved _ _ hevent =>
      rw [replay_one, hevent] at hlines
      rw [eventsOf, List.map_cons, List.map_nil, hevent]
      exact congrArg (qtyOf sku) hlines
    | reservationFailed _ hevent =>
      rw [replay_one, hevent] at hstatus
      cases hstatus

end Row

end Stock

/-- **At rest, the stock counters can be read off the order service's table.** -/
theorem stockAtRest (db : Db) (hdb : OnlyStocked db) (c : Checkout) (h : CheckoutFrom db c)
    (hquiet : Quiet c) (hdrawn : DrawnOnce c.shared) (hwhole : AskedWhole c.shared) (sku : String) :
    (qtyReserved c.shared.db sku : Num) =
      qtyReserved db sku + ∑ o ∈ orderTable c.shared.db, takenBy c.shared.db o sku := by
  have hreach := h.reach hdb
  have hI := hreach.sound.inv
  have hconsistent := hreach.sound.consistent
  have hends : ∀ o, Asked c.shared .createOrder o →
      o ∈ orderTable c.shared.db ∧ heldBy c.shared.db o sku = takenBy c.shared.db o sku := by
    intro o hasked
    obtain ⟨phase, items, result, row, hended⟩ := hquiet.endedAt hreach hdrawn hasked
    refine ⟨mem_orderTable.mpr ?_, hended.heldBy_eq hI sku⟩
    rw [hended.row_eq]
    rfl
  have hsubset : inventoryOrders c.shared.db ⊆ orderTable c.shared.db := by
    intro o ho
    obtain ⟨rows, hrows⟩ := hconsistent.stream .inventory o
    obtain ⟨r, more, rfl⟩ := List.exists_cons_of_ne_nil (hrows.ne_nil_of_mem ho)
    exact (hends o (asked_of_inventory hrows hI)).1
  rw [(ledger_of_from h hdb hwhole).qtyReserved_eq hconsistent sku]
  refine congrArg (_ + ·) ?_
  calc totalHeld c.shared.db sku
      = ∑ o ∈ orderTable c.shared.db, heldBy c.shared.db o sku := by
        exact heldSum_eq (qtyOf_nil sku) hsubset
    _ = ∑ o ∈ orderTable c.shared.db, takenBy c.shared.db o sku := by
        refine Finset.sum_congr rfl fun o ho => ?_
        exact (hends o (asked_of_orderTable ho hI hconsistent)).2

/-- The counter after the three requests. -/
theorem stockAtRest_requests : (qtyReserved atRest.shared.db "A" : Num) =
    qtyReserved fiveInStock "A" +
      ∑ o ∈ orderTable atRest.shared.db, takenBy atRest.shared.db o "A" := by
  have hstart : CheckoutFrom fiveInStock afterRequests :=
    CheckoutFrom.handleAll .start requests (by decide +kernel)
  have hfrom : CheckoutFrom fiveInStock atRest :=
    drain_keeps (fun _ _ _ _ hc _ ht => hc.step (.handled ht)) _ reach_afterRequests
      roomy_afterRequests hstart
  refine stockAtRest _ onlyStocked_fiveInStock _ hfrom quiet_atRest drawnOnce_atRest ?_ "A"
  rintro o customerId items ⟨⟨correlationId, hdrawn⟩, -⟩
  exact ((roomy_drain _ reach_afterRequests roomy_afterRequests).orders _ _ _ _ hdrawn).lines

end Saganova
