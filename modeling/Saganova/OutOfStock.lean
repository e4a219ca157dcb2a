import Saganova.CheckoutOutcomes
import Saganova.Concurrency.Knowledge
import Saganova.Reservations

/-!
# Out of stock

A reservation that finds too little in stock is recorded as failed in a second
transaction, and its order is cancelled.  By then the stock may have changed,
and any number of other orders is being reserved meanwhile; but nobody is
turned away who need not be (`outOfStock_true`): the orders placed so far ask
together for more of the SKU than there was of it, or it is not in the table.
So where there is enough for all orders, none is cancelled for its stock
(`enoughForAll`).
-/

namespace Saganova

open Concurrency StockRepository

/-! ## Demand -/

/-- The order and the items of a CreateOrder command. -/
def placement : Topic × Message → Option (Uuid × List OrderLineItem)
  | (_, .command c) =>
    if c.type = .createOrder then
      c.payload.orderId.bind fun o => c.payload.items.map fun items => (o, items)
    else none
  | (_, .event _) => none

/-- The orders placed so far. -/
def placements (s : Shared) : Finset (Uuid × List OrderLineItem) :=
  ((publications s).filterMap placement).toFinset

/-- What they ask of a SKU together. -/
def demand (s : Shared) (sku : String) : Num :=
  ∑ p ∈ placements s, qtyOf sku (reservationLines p.2)

/-- The SKU is asked for, and there is less of it in `db`. -/
structure Scarce (db : Db) (s : Shared) (sku : String) : Prop where
  wanted : ∃ p ∈ placements s, ∃ item ∈ p.2, item.sku = sku
  short : ∀ row, stockLevel db sku = some row →
    ((row.qtyAvailable - row.qtyReserved : ℤ) : Num) < demand s sku

/-- A commit asks for nothing. -/
theorem Scarce.commit {db : Db} {s : Shared} {sku : String} {t : Task} {w : Db}
    (h : Scarce db s sku) : Scarce db (s.commit t w) sku := ⟨h.wanted, h.short⟩

section Demand

variable {db : Db} {s s' : Shared} {o : Uuid} {items : List OrderLineItem} {sku : String}

theorem placement_command (topic : Topic) (c : CommandEnvelope) :
    placement (topic, .command c) = if c.type = .createOrder then
      c.payload.orderId.bind fun o => c.payload.items.map fun items => (o, items) else none := rfl

theorem mem_placements (hI : CheckoutInv s) :
    (o, items) ∈ placements s ↔ ∃ customerId, Placed s o customerId items := by
  unfold placements
  rw [List.mem_toFinset, List.mem_filterMap]
  constructor
  · rintro ⟨⟨topic, message⟩, hmem, hsome⟩
    cases message with
    | event e => cases hsome
    | command c =>
      have hcommand := hI.commands topic c (published_iff.mpr hmem)
      rw [placement_command] at hsome
      by_cases htype : c.type = .createOrder
      · rw [if_pos htype] at hsome
        rw [htype] at hcommand
        generalize c.payload = payload at hsome hcommand
        cases hcommand with
        | createOrder hplaced =>
          cases hsome
          exact ⟨_, hplaced⟩
      · rw [if_neg htype] at hsome
        cases hsome
  · rintro ⟨customerId, -, c, hpublished, htype, hpayload⟩
    refine ⟨_, published_iff.mp hpublished, ?_⟩
    rw [placement_command, if_pos htype, hpayload]
    rfl

theorem placements_subset (hgrow : Grows s s') : placements s ⊆ placements s' := by
  intro p hp
  unfold placements at hp ⊢
  rw [List.mem_toFinset, List.mem_filterMap] at hp ⊢
  obtain ⟨publication, hmem, hsome⟩ := hp
  exact ⟨publication, (hgrow.trace.filterMap _).subset hmem, hsome⟩

theorem demand_mono (hwhole : AskedWhole s') (hI' : CheckoutInv s') (hgrow : Grows s s') :
    demand s sku ≤ demand s' sku := by
  refine Finset.sum_le_sum_of_subset_of_nonneg (placements_subset hgrow) fun p hp _ => ?_
  obtain ⟨customerId, hplaced⟩ := (mem_placements hI').mp hp
  exact (hwhole _ _ _ hplaced).qtyOf_nonneg sku

theorem Scarce.grow (h : Scarce db s sku) (hwhole : AskedWhole s') (hI' : CheckoutInv s')
    (hgrow : Grows s s') : Scarce db s' sku where
  wanted := h.wanted.imp fun _ hp => ⟨placements_subset hgrow hp.1, hp.2⟩
  short row hrow := (h.short row hrow).trans_le (demand_mono hwhole hI' hgrow)

/-- An order holds no more than it asks for. -/
theorem heldBy_le (hI : CheckoutInv s) (hdb : Consistent s.db) (hdrawn : DrawnOnce s)
    (hwhole : AskedWhole s) {customerId : Uuid} (hplaced : Placed s o customerId items) :
    heldBy s.db o sku ≤ qtyOf sku (reservationLines items) := by
  obtain ⟨rows, hrows⟩ := hdb.stream .inventory o
  rw [heldBy_eq hrows]
  have hnonneg := (hwhole _ _ _ hplaced).qtyOf_nonneg sku
  cases hI.streams _ _ _ hrows with
  | nil => exact hnonneg
  | reserved hplaced' _ hevent =>
    obtain rfl := hplaced.unique hdrawn hplaced'
    rw [eventsOf, List.map_cons, List.map_nil, hevent]
    exact le_refl _
  | reservationFailed _ hevent =>
    rw [eventsOf, List.map_cons, List.map_nil, hevent]
    exact hnonneg

/-- **What the others hold and what an untried order asks for is in demand.** -/
theorem held_le_demand (hI : CheckoutInv s) (hdb : Consistent s.db) (hdrawn : DrawnOnce s)
    (hwhole : AskedWhole s) {customerId : Uuid} (hplaced : Placed s o customerId items)
    (hrows : HasStream .inventory s.db o []) :
    totalHeld s.db sku + qtyOf sku (reservationLines items) ≤ demand s sku := by
  have hmem : (o, items) ∈ placements s := (mem_placements hI).mpr ⟨customerId, hplaced⟩
  -- an order was placed with one list of items
  have hinj : Set.InjOn Prod.fst (placements s : Set (Uuid × List OrderLineItem)) := by
    rintro ⟨o₁, items₁⟩ h₁ ⟨o₂, items₂⟩ h₂ (rfl : o₁ = o₂)
    obtain ⟨c₁, h₁⟩ := (mem_placements hI).mp h₁
    obtain ⟨c₂, h₂⟩ := (mem_placements hI).mp h₂
    rw [h₁.unique hdrawn h₂]
  have hsubset : inventoryOrders s.db ⊆ (placements s).image Prod.fst := by
    intro o' ho'
    obtain ⟨rows, hrows'⟩ := hdb.stream .inventory o'
    obtain ⟨r, more, rfl⟩ := List.exists_cons_of_ne_nil (hrows'.ne_nil_of_mem ho')
    obtain ⟨c', items', hplaced'⟩ := (hrows'.first.asked_reserveStock hI).placed hI
    exact Finset.mem_image.mpr ⟨(o', items'), (mem_placements hI).mpr ⟨c', hplaced'⟩, rfl⟩
  have hnone : heldBy s.db o sku = 0 := by
    rw [heldBy_eq hrows]
    rfl
  have htotal : totalHeld s.db sku = ∑ p ∈ placements s, heldBy s.db p.1 sku := by
    rw [← Finset.sum_image (f := fun o => heldBy s.db o sku) hinj]
    exact heldSum_eq (qtyOf_nil sku) hsubset
  calc totalHeld s.db sku + qtyOf sku (reservationLines items)
      = ∑ p ∈ (placements s).erase (o, items), heldBy s.db p.1 sku +
          qtyOf sku (reservationLines items) := by
        rw [htotal, ← Finset.add_sum_erase _ _ hmem, hnone, zero_add]
    _ ≤ ∑ p ∈ (placements s).erase (o, items), qtyOf sku (reservationLines p.2) +
          qtyOf sku (reservationLines items) := by
        refine add_le_add_left (Finset.sum_le_sum fun p hp => ?_) _
        obtain ⟨c', hplaced'⟩ := (mem_placements hI).mp (Finset.mem_of_mem_erase hp)
        exact heldBy_le hI hdb hdrawn hwhole hplaced'
    _ = demand s sku := Finset.sum_erase_add _ _ hmem

end Demand

/-! ## The shop -/

/-- A request asks for positive whole quantities. -/
def Task.Whole : Task → Prop
  | .createOrder _ items _ => PositiveLines (reservationLines items)
  | _ => True

/-- The composed system over the stock table `db`. -/
def shopSystem (db : Db) : System :=
  { checkoutSystem with
    start := fun s => s = ⟨db, []⟩
    spawn := fun s t => Delivered s.shared t ∧ t.Whole }

/-- What is known when a task takes a step. -/
structure ShopKnown (db : Db) (s : Shared) (t : Task) : Prop where
  inv : CheckoutInv s
  drawn : DrawnOnce s
  whole : AskedWhole s
  ledger : Ledger db s
  delivered : Delivered s t

section Known

variable {db : Db} {G : Guard} {s : State}

theorem shopSystem_keeps (hdb : OnlyStocked db) : (shopSystem db).Keeps serviceProtocol G :=
  keepsServiceProtocol rfl fun s hs => by
    rw [show s = ⟨db, []⟩ from hs]
    exact hdb.fresh.consistent

/-- It is the composed system. -/
theorem reach_checkout (hdb : OnlyStocked db) (h : Reach (shopSystem db) G s) :
    Reach checkoutSystem G s := by
  have hstart : ∀ s, (shopSystem db).start s → checkoutSystem.start s := by
    intro s hs
    rw [show s = ⟨db, []⟩ from hs]
    exact ⟨hdb, rfl⟩
  have hspawn : ∀ s t, (shopSystem db).spawn s t → checkoutSystem.spawn s t :=
    fun _ _ ht => ht.1
  exact h.widen rfl hstart hspawn rfl rfl

theorem checkoutInv_of_shop (hdb : OnlyStocked db) (h : Reach (shopSystem db) G s) :
    CheckoutInv s.shared :=
  checkoutInv_of_reach rfl (fun _ _ ht => ht) (fun _ hs => hs) (reach_checkout hdb h)

theorem askedWhole_of_shop (hdb : OnlyStocked db) (h : Reach (shopSystem db) G s) :
    AskedWhole s.shared := by
  suffices hdrawn : ∀ customerId items correlationId (o : Uuid),
      Event.acted (.createOrder customerId items correlationId) .randomUUID o ∈ s.shared.trace →
      PositiveLines (reservationLines items) by
    rintro o customerId items ⟨⟨correlationId, hmem⟩, -⟩
    exact hdrawn _ _ _ _ hmem
  refine Protocol.invariant_of_took (shopSystem_keeps hdb) (T := fun _ t => t.Whole)
    (I := fun s => ∀ customerId items correlationId (o : Uuid),
      Event.acted (.createOrder customerId items correlationId) .randomUUID o ∈ s.trace →
      PositiveLines (reservationLines items)) (fun _ _ ht => ht.2) (fun _ _ _ _ ht => ht)
    (fun s hs => ?_) (fun t seen s s' hinv htook hI hstep => ?_) h
  · intro customerId items correlationId o hmem
    rw [show s = ⟨db, []⟩ from hs] at hmem
    cases hmem
  · intro customerId items correlationId o hmem
    obtain hold | ⟨rfl, -, -⟩ := ServiceStep.new_event hstep hmem
    · exact hI _ _ _ _ hold
    · exact htook.task

theorem ledger_of_shop (hdb : OnlyStocked db) (h : Reach (shopSystem db) G s) :
    Ledger db s.shared := by
  refine Protocol.invariant_of_known (shopSystem_keeps hdb)
    (K := fun s => CheckoutInv s ∧ AskedWhole s)
    (fun s hs => ⟨checkoutInv_of_shop hdb hs, askedWhole_of_shop hdb hs⟩)
    (J := fun s t _ => Delivered s t) (fun _ _ ht => ht.1)
    (fun t seen s s' hgrow ht => Delivered.grow ht hgrow) (fun _ _ _ _ ht => ht) (fun s hs => ?_)
    (fun t seen s s' hinv hK _ htook hI hstep => ?_) h
  · rw [show s = ⟨db, []⟩ from hs]
    exact .fresh hdb.fresh
  · exact hI.step hinv (asksPositive_of_delivered hK.1 hK.2 htook.task) hstep

/-- **It is known in every reachable state.** -/
theorem shopKnown_of_reach (hdb : OnlyStocked db) (h : Reach (shopSystem db) anything s) :
    Reach (shopSystem db) (Knowing (ShopKnown db)) s := by
  refine h.knowing fun s hs i job hj => ?_
  exact ⟨checkoutInv_of_shop hdb hs, drawnOnce_of_reach (reach_checkout hdb hs),
    askedWhole_of_shop hdb hs, ledger_of_shop hdb hs,
    Protocol.task_of_reach (shopSystem_keeps hdb) (T := Delivered) (fun _ _ ht => ht.1)
      (fun t s s' hgrow ht => Delivered.grow ht hgrow) hs i job hj⟩

end Known

/-! ## Turned away -/

/-- The order's reservation failed at the SKU. -/
def TurnedAway (s : Shared) (o : Uuid) (sku : String) : Prop :=
  ∃ reason, First .inventory s o (.inventoryReservationFailed { orderId := o, sku, reason })

/-- A step turns an order away only from what is scarce. -/
def Honest (db : Db) (s s' : Shared) : Prop :=
  ∀ o sku, TurnedAway s' o sku → TurnedAway s o sku ∨ Scarce db s' sku

def shopProtocol (db : Db) : Protocol Row Err Act.Reply Task :=
  serviceProtocol.knowing (ShopKnown db) (Honest db)

section Turned

variable {db : Db} {s s' : Shared} {seen : Db} {t : Task} {o : Uuid} {sku reason : String}
  {lines : List ReservationLine}

/-- An order that is turned away was so before the step, or its stream begins with it. -/
theorem TurnedAway.before (haway : TurnedAway s' o sku) (h : ServiceStep t seen s s') :
    TurnedAway s o sku ∨ ∃ reason r, HasStream .inventory s.db o [] ∧
      HasStream .inventory s'.db o [r] ∧
      r.event = .inventoryReservationFailed { orderId := o, sku, reason } ∧
      Appends s t .inventory o [] r := by
  obtain ⟨reason, r, more, hrows, hevent⟩ := haway
  obtain hold | ⟨rows', r', hold, heq, happ⟩ := h.stream_before hrows
  · exact .inl ⟨reason, r, more, hold, hevent⟩
  · cases rows' with
    | nil =>
      obtain ⟨rfl, rfl⟩ := List.cons.inj heq
      exact .inr ⟨reason, r, hold, hrows, hevent, happ⟩
    | cons r₀ rest =>
      obtain ⟨rfl, -⟩ := List.cons.inj heq
      exact .inl ⟨reason, r, rest, hold, hevent⟩

/-- Only a reservation fails. -/
theorem honest_of_other (h : ServiceStep t seen s s')
    (ht : ∀ r, t = .command .inventory r → r.value.type ≠ .reserveStock) : Honest db s s' := by
  intro o sku haway
  obtain hold | ⟨reason, r, -, -, hevent, happ⟩ := haway.before h
  · exact .inl hold
  · cases happ with
    | reserved _ _ _ => cases hevent
    | failed htype _ => exact absurd htype (ht _ rfl)
    | released _ _ hne _ => exact absurd rfl hne

/-- What is done outside the database turns nobody away. -/
theorem honest_acted (t : Task) (a : Act) (res : Act.Reply a) : Honest db s (s.acted t a res) :=
  fun _ _ haway => .inl haway

/-- A reservation that is stored has not failed. -/
theorem honest_of_stream {r : Record CommandEnvelope} {row : EventStoreRow .inventory}
    (h : ServiceStep (.command .inventory r) seen s s') (hid : r.value.payload.orderId = some o)
    (hrows : HasStream .inventory s'.db o [row])
    (hevent : ∀ sku reason, HasStream .inventory s.db o [] →
      row.event = .inventoryReservationFailed { orderId := o, sku, reason } → Scarce db s' sku) :
    Honest db s s' := by
  intro o' sku haway
  obtain hold | ⟨reason, row', hbefore, hafter, hfailed, happ⟩ := haway.before h
  · exact .inl hold
  · obtain rfl : o = o' := by
      cases happ with
      | reserved _ ho _ => exact Option.some.inj (hid.symm.trans ho)
      | failed _ ho => exact Option.some.inj (hid.symm.trans ho)
      | released _ _ hne _ => exact absurd rfl hne
    obtain rfl := List.singleton_inj.mp (hafter.unique hrows)
    exact .inr (hevent sku reason hbefore hfailed)

theorem le_qtyOf {line : ReservationLine} (h : PositiveLines lines) (hline : line ∈ lines) :
    line.qty ≤ qtyOf line.sku lines := by
  refine List.single_le_sum (fun q hq => ?_) _ (List.mem_map.mpr ⟨line, ?_, rfl⟩)
  · obtain ⟨line', hline', rfl⟩ := List.mem_map.mp hq
    obtain ⟨n, -, hn⟩ := h line' (List.mem_filter.mp hline').1
    rw [hn]
    exact Nat.cast_nonneg n
  · exact List.mem_filter.mpr ⟨hline, by simp⟩

/-- **What is not in stock is scarce**, where the order was not tried before. -/
theorem scarce_of_insufficient {r : Record CommandEnvelope} {command : ReserveStockCommand}
    {reservationId : Uuid} {time : Time} {ids : ℕ → Uuid}
    (hK : ShopKnown db s (.command .inventory r)) (hdb : Consistent s.db)
    (htype : r.value.type = .reserveStock) (hid : r.value.payload.orderId = some command.orderId)
    (hlines : r.value.payload.lines = some command.lines)
    (hrows : HasStream .inventory s.db command.orderId [])
    (herror : (ReserveStockHandler.transaction command reservationId time ids).exec s.db [] =
      .error (.insufficientStock sku reason)) : Scarce db s sku := by
  obtain ⟨before, line, after, hsplit, -, hunavailable, rfl⟩ := exec_transaction_insufficient herror
  have hcommand := hK.inv.commands _ _ hK.delivered
  rw [htype] at hcommand
  obtain ⟨customerId, items, hplaced, heq⟩ := hcommand.lines hid hlines
  have hmem : line ∈ reservationLines items := by
    rw [← heq, hsplit]
    simp
  refine ⟨?_, fun row hrow => ?_⟩
  · obtain ⟨item, hitem, rfl⟩ := List.mem_map.mp hmem
    exact ⟨(command.orderId, items), (mem_placements hK.inv).mpr ⟨_, hplaced⟩, item, hitem, rfl⟩
  obtain ⟨row', hrow', havailable, hreserved⟩ := hK.ledger.balance.level _ row hrow
  have hshort : ((row'.qtyAvailable - row'.qtyReserved : ℤ) : Num) < line.qty :=
    not_le.mp fun hle => hunavailable ⟨row', hrow', hle⟩
  have hline : line.qty ≤ qtyOf line.sku (reservationLines items) :=
    le_qtyOf (hK.whole _ _ _ hplaced) hmem
  have hdemand : totalHeld s.db line.sku + qtyOf line.sku (reservationLines items) ≤
      demand s line.sku := held_le_demand hK.inv hdb hK.drawn hK.whole hplaced hrows
  push_cast at hshort ⊢
  rw [havailable, hreserved] at hshort
  linarith

end Turned

/-! ## The handlers -/

section Handlers

variable {db : Db} {S : System} {t : Task} {seen : Db} {s : Shared}
  {r : Record CommandEnvelope} {o : Uuid} {sku reason : String} {lines : List ReservationLine}

theorem wp_acted_shop {α : Type} {Q : Post Row Err Act.Reply Task α} (a : Act)
    {next : Act.Reply a → Handler α} (ha : ∀ s', Allowed s' seen t a)
    (h : ∀ s' res, Grows s s' → (next res).wp S (shopProtocol db) t Q seen s') :
    Proc.wp S (shopProtocol db) t Q (.act a next) seen s := by
  intro s' hgrow hinv res _ _
  exact ⟨⟨.acted a res (ha s'), honest_acted t a res⟩,
    h _ res (Grows.trans hgrow (grows_acted s' t a res))⟩

/-- The order was tried before, or there is too little for all. -/
def TriedOrScarce (db : Db) (s : Shared) (o : Uuid) (sku : String) : Prop :=
  (∃ rows, HasStream .inventory s.db o rows ∧ rows ≠ []) ∨ Scarce db s sku

theorem TriedOrScarce.scarce {s' : Shared} (h : TriedOrScarce db s o sku) (hgrow : Grows s s')
    (hwhole : AskedWhole s') (hI' : CheckoutInv s') (hrows : HasStream .inventory s'.db o []) :
    Scarce db s' sku := by
  obtain ⟨rows, hold, hne⟩ | hscarce := h
  · obtain ⟨more, hmore⟩ := hgrow.stream hold
    exact absurd (List.append_eq_nil_iff.mp (hmore.unique hrows)).1 hne
  · exact hscarce.grow hwhole hI' hgrow

/-- The record of a failed reservation. -/
theorem wp_saveFailed_shop {s₀ : Shared} {time : Time} (hscarce : TriedOrScarce db s₀ o sku)
    (hgrow : Grows s₀ s) (htype : r.value.type = .reserveStock) (hid : r.value.payload.orderId = some o) :
    (InventoryEventStoreRepository.save (StockAggregate.failed o sku reason time)
      r.value.correlationId).wp S (shopProtocol db) (.command .inventory r)
      (okPost fun _ _ => True) seen s := by
  unfold InventoryEventStoreRepository.save
  rw [randomUUIDs_bind]
  refine wp_acted_shop .randomUUIDs (fun _ => trivial) fun s₁ ids h₁ => ?_
  refine Proc.wp_bind _ _ ?_
  intro s₂ h₂ hinv
  refine ⟨fun w hw hK => ⟨?_, trivial⟩, fun e _ _ => trivial⟩
  have hstock : StockEffect .inventory []
    (.inventoryReservationFailed { orderId := o, sku, reason }) s₂.db s₂.db := rfl
  obtain ⟨hstep, hstream⟩ := serviceStep_of_runs hinv hstock begins_nil (.failed htype hid)
    (fun h => absurd rfl h) (runs_saveWithinTransaction.mp (Tx.runs_of_exec hw))
  refine ⟨hstep, honest_of_stream hstep hid hstream fun sku' reason' hrows heq => ?_⟩
  obtain ⟨-, rfl, -⟩ := InventoryReservationFailedPayload.mk.inj
    (InventoryEvent.inventoryReservationFailed.inj heq)
  exact (hscarce.scarce (hgrow.trans (h₁.trans h₂)) hK.whole hK.inv hrows).commit

theorem wp_reserveStock_shop (hfault : S.fault = databaseFault)
    (htype : r.value.type = .reserveStock) (hid : r.value.payload.orderId = some o)
    (hlines : r.value.payload.lines = some lines) :
    (ReserveStockHandler.execute { orderId := o, lines, correlationId := r.value.correlationId
        }).wp S (shopProtocol db) (.command .inventory r) (okPost fun _ _ => True) seen s := by
  unfold ReserveStockHandler.execute ReservationProjectionRepository.findByOrderId
  rw [Proc.select_bind]
  intro s₁ h₁ hinv₁ _
  cases hfound : Store.row s₁.db (.projection .inventory o) with
  | some row =>
    simp only [hfound]
    trivial
  | none =>
    simp only [hfound, randomUUID_bind, now_bind, randomUUIDs_bind]
    refine wp_acted_shop .randomUUID (fun _ => trivial) fun s₂ reservationId h₂ => ?_
    refine wp_acted_shop .now (fun _ => trivial) fun s₃ time h₃ => ?_
    refine wp_acted_shop .randomUUIDs (fun _ => trivial) fun s₄ ids h₄ => ?_
    refine Proc.wp_tryCatch _ _ ?_
    intro s₅ h₅ hinv₅
    refine ⟨fun w hw _ => ⟨?_, trivial⟩, fun e he hK => ?_⟩
    · obtain ⟨_, db', hreserve, hsave⟩ := Tx.runs_bind.mp (Tx.runs_of_exec hw)
      have hstock : StockEffect .inventory []
        (.inventoryReserved { reservationId, orderId := o, lines }) s₅.db db' := hreserve
      obtain ⟨hstep, hstream⟩ := serviceStep_of_runs hinv₅ hstock begins_nil
        (.reserved htype hid hlines) (fun h => absurd rfl h) (runs_saveWithinTransaction.mp hsave)
      exact ⟨hstep, honest_of_stream hstep hid hstream fun _ _ _ heq => by cases heq⟩
    · cases e with
      | insufficientStock sku reason =>
        have hscarce : TriedOrScarce db s₅ o sku := by
          obtain ⟨rows, hrows⟩ := Consistent.stream hinv₅ .inventory o
          by_cases hne : rows = []
          · subst hne
            obtain hdown | herror := he
            · rw [hfault] at hdown
              obtain ⟨message, hdown⟩ := hdown
              cases hdown
            · exact .inr (scarce_of_insufficient hK hinv₅ htype hid hlines hrows herror)
          · exact .inl ⟨rows, hrows, hne⟩
        show Proc.wp S (shopProtocol db) (.command .inventory r) (okPost fun _ _ => True)
          (.act .now _) s₁.db s₅
        refine wp_acted_shop .now (fun _ => trivial) fun s₆ time h₆ => ?_
        refine Proc.wp_bind _ _ (Proc.wp_mono ?_ _
          (wp_saveFailed_shop hscarce h₆ htype hid))
        intro res _ _ _
        cases res <;> trivial
      | _ => trivial

theorem wp_reserveCommand_shop (hfault : S.fault = databaseFault)
    (htype : r.value.type = .reserveStock) : (code (.command .inventory r)).wp S (shopProtocol db)
      (.command .inventory r) (fun _ _ _ => True) seen s := by
  refine Proc.wp_bind _ _ (Proc.wp_mono ?_ _ (?_ : (InventoryKafkaConsumer.dispatch r.value).wp S
    (shopProtocol db) (.command .inventory r) (okPost fun _ _ => True) seen s))
  · intro res seen s _
    cases res with
    | error e => trivial
    | ok u =>
      refine wp_acted_shop (.commitOffsets _ _ _) (fun s' => allowed_commitOffsets (by simp))
        fun s' res _ => ?_
      cases res <;> trivial
  · unfold InventoryKafkaConsumer.dispatch
    simp only [htype]
    cases hid : r.value.payload.orderId with
    | none => trivial
    | some o =>
      cases hlines : r.value.payload.lines with
      | none => trivial
      | some lines => exact wp_reserveStock_shop hfault htype hid hlines

/-- **Every task is honest.** -/
theorem wp_code_shop (hfault : S.fault = databaseFault) (t : Task) :
    (code t).wp S (shopProtocol db) t (fun _ _ _ => True) seen s := by
  by_cases ht : ∃ r, t = .command .inventory r ∧ r.value.type = .reserveStock
  · obtain ⟨r, rfl, htype⟩ := ht
    exact wp_reserveCommand_shop hfault htype
  · exact Proc.wp_knowing (fun _ _ _ => trivial)
      (fun _ _ _ _ _ hstep => honest_of_other hstep fun r heq htype => ht ⟨r, heq, htype⟩) _
      (wp_code t)

end Handlers

/-! ## In every run -/

section Runs

variable {db : Db} {s : State}

theorem shopProtocol_keeps (hdb : OnlyStocked db) :
    (shopSystem db).Keeps (shopProtocol db) (Knowing (ShopKnown db)) :=
  .knowing (shopSystem_keeps (G := anything) hdb).start fun _ t => wp_code_shop rfl t

theorem turnedAway_scarce (hdb : OnlyStocked db) (h : Reach (shopSystem db) anything s) :
    ∀ o sku, TurnedAway s.shared o sku → Scarce db s.shared sku := by
  refine Protocol.invariant_of_known (shopProtocol_keeps hdb)
    (K := fun s => CheckoutInv s ∧ AskedWhole s)
    (fun s hs => ⟨checkoutInv_of_shop hdb hs, askedWhole_of_shop hdb hs⟩)
    (J := fun _ _ _ => True) (fun _ _ _ => trivial) (fun _ _ _ _ _ _ => trivial)
    (fun _ _ _ _ _ => trivial) (I := fun s => ∀ o sku, TurnedAway s o sku → Scarce db s sku)
    (fun s hs => ?_) (fun t seen s s' hinv _ hK' _ hI hguar => ?_) (shopKnown_of_reach hdb h)
  · rintro o sku ⟨reason, r, more, hrows, -⟩
    rw [show s = ⟨db, []⟩ from hs] at hrows
    cases hdb.fresh.stream_nil hrows
  · intro o sku haway
    obtain hold | hscarce := hguar.2 o sku haway
    · exact (hI o sku hold).grow hK'.2 hK'.1 (ServiceStep.grows hguar.1 hinv)
    · exact hscarce

theorem ReservationFailed.scarce {o : Uuid} (hfailed : ReservationFailed s.shared o)
    (hdb : OnlyStocked db) (h : Reach (shopSystem db) anything s) :
    ∃ sku, Scarce db s.shared sku := by
  obtain ⟨sku, reason, hfirst⟩ := hfailed
  exact ⟨sku, turnedAway_scarce hdb h o sku ⟨reason, hfirst⟩⟩

end Runs

/-- **Nobody is turned away who need not be**: when a reservation has failed at
a SKU, all the orders placed ask for more of it than there was at the start, or
there is none such. -/
theorem outOfStock_true (db : Db) (hdb : OnlyStocked db) (s : LockState)
    (h : LockReach (shopSystem db) anything s) (o : Uuid)
    (rows : List (EventStoreRow .inventory)) (hrows : HasStream .inventory s.base.shared.db o rows)
    (r : EventStoreRow .inventory) (hr : r ∈ rows) (p : InventoryReservationFailedPayload)
    (hp : r.event = .inventoryReservationFailed p) : Scarce db s.base.shared p.sku := by
  have hreach := h.atomic.2
  refine turnedAway_scarce hdb hreach o p.sku ?_
  cases (checkoutInv_of_shop hdb hreach).streams _ _ _ hrows with
  | nil => cases hr
  | reserved _ _ hevent =>
    obtain rfl := List.mem_singleton.mp hr
    cases hevent.symm.trans hp
  | reservationFailed _ hevent =>
    obtain rfl := List.mem_singleton.mp hr
    obtain rfl := InventoryEvent.inventoryReservationFailed.inj (hevent.symm.trans hp)
    exact ⟨_, _, [], hrows, hevent⟩

/-- **Where there is enough for all, nobody is turned away**: an order is only
cancelled for a declined payment. -/
theorem enoughForAll (db : Db) (hdb : OnlyStocked db) (s : LockState)
    (h : LockReach (shopSystem db) anything s)
    (henough : ∀ p ∈ placements s.base.shared, ∀ item ∈ p.2, ∃ row,
      stockLevel db item.sku = some row ∧
        demand s.base.shared item.sku ≤ (row.qtyAvailable - row.qtyReserved : ℤ))
    (o : Uuid) (row : OrderProjectionRow)
    (hrow : GetOrderByIdHandler.execute s.base.shared.db o = .ok row) : row.status ≠ .cancelled ∨
      row.cancelReason = some "Saga failed at step \"AUTHORIZE_PAYMENT\"" ∧
        ∃ p, DeclinedBy s.base.shared o p := by
  have hreach := h.atomic.2
  have hcheckout := reach_checkout hdb hreach
  have hI := checkoutInv_of_shop hdb hreach
  have htrue := orderTrue_of_inv (o := o)
    (queryInv_of_reach rfl (fun _ _ ht => ht) (fun _ hs => hs) hcheckout) hI
    (Protocol.sound (shopSystem_keeps hdb) hreach).inv (drawnOnce_of_reach hcheckout)
  rw [hrow] at htrue
  obtain ⟨-, items, -, -, -, hend⟩ := htrue
  generalize row.status = status, row.paymentId = paymentId, row.cancelReason = cancelReason at *
  cases hend with
  | created => exact .inl (by simp)
  | confirmed _ _ => exact .inl (by simp)
  | cancelled hreason =>
    obtain ⟨step, rfl, hfailed⟩ := hreason
    cases hfailed with
    | unreserved hunreserved =>
      obtain ⟨sku, hscarce⟩ := hunreserved.scarce hdb hreach
      obtain ⟨p, hp, item, hitem, rfl⟩ := hscarce.wanted
      obtain ⟨level, hlevel, hle⟩ := henough p hp item hitem
      exact absurd hle (not_le.mpr (hscarce.short level hlevel))
    | declined hdeclined =>
      obtain ⟨p, hdeclined, -⟩ := hdeclined.declinedBy hI
      exact .inr ⟨rfl, p, hdeclined⟩

/-! ## Two runs -/

section Runs

variable {db : Db} {ts : List Task}

theorem mayStart_shop {s : Shared} (h : checkoutSystem.MayStart allWell ts s)
    (hwhole : ∀ t ∈ ts, t.Whole) : (shopSystem db).MayStart allWell ts s := by
  induction ts generalizing s with
  | nil => trivial
  | cons t ts ih =>
    exact ⟨⟨h.1, hwhole t List.mem_cons_self⟩, ih h.2 fun t ht => hwhole t (List.mem_cons_of_mem _ ht)⟩

theorem reach_shop (hstart : checkoutSystem.MayStart allWell ts ⟨db, []⟩)
    (hwhole : ∀ t ∈ ts, t.Whole) :
    Reach (shopSystem db) anything (.idle ((shopSystem db).runs allWell ts ⟨db, []⟩)) := by
  refine Reach.runs_of ts (.start rfl) (mayStart_shop hstart hwhole) (I := CountedDraws)
    (fun t _ => ?_) ?_
  · exact ⟨(mayAnswer_allWell t).reply, (mayAnswer_allWell t).acted, (mayAnswer_allWell t).commit⟩
  · intro t id hmem
    cases hmem

theorem whole_request {customerId : Uuid} {sku : String} {n : ℕ} {price : Num}
    {correlationId : String} (hn : 0 < n) :
    (Task.createOrder customerId [{ sku, qty := n, unitPriceCents := price }] correlationId).Whole := by
  intro line hline
  obtain rfl := List.mem_singleton.mp hline
  exact ⟨n, hn, rfl⟩

theorem reach_sale_shop : Reach (shopSystem fiveInStock) anything
    (.idle ((shopSystem fiveInStock).runs allWell sale ⟨fiveInStock, []⟩)) := by
  refine reach_shop (by decide +kernel) fun t ht => ?_
  obtain rfl | ht := List.mem_cons.mp ht
  · exact whole_request (n := 2) (by decide)
  · simp only [List.mem_cons, List.not_mem_nil, or_false] at ht
    rcases ht with rfl | rfl | rfl | rfl | rfl | rfl | rfl | rfl | rfl | rfl
    all_goals trivial

/-- After the sale: two of five were asked for, and the order is not cancelled. -/
theorem enoughForAll_sale : ∃ (s : LockState) (row : OrderProjectionRow),
    GetOrderByIdHandler.execute s.base.shared.db (uuidOf 0) = .ok row ∧ (row.status ≠ .cancelled ∨
      row.cancelReason = some "Saga failed at step \"AUTHORIZE_PAYMENT\"" ∧
        ∃ p, DeclinedBy s.base.shared (uuidOf 0) p) := by
  let s : LockState :=
    ⟨.idle ((shopSystem fiveInStock).runs allWell sale ⟨fiveInStock, []⟩), fun _ => none⟩
  have hplacements : placements s.base.shared =
      {((uuidOf 0), [{ sku := "A", qty := 2, unitPriceCents := 500 }])} := by decide +kernel
  have hfound : (GetOrderByIdHandler.execute s.base.shared.db (uuidOf 0)).toOption.isSome := by
    decide +kernel
  cases hrow : GetOrderByIdHandler.execute s.base.shared.db (uuidOf 0) with
  | error e =>
    rw [hrow] at hfound
    cases hfound
  | ok row =>
    refine ⟨s, row, hrow, enoughForAll fiveInStock onlyStocked_fiveInStock s
      reach_sale_shop.withLocks (fun p hp item hitem => ?_) (uuidOf 0) row hrow⟩
    rw [hplacements, Finset.mem_singleton] at hp
    subst hp
    obtain rfl := List.mem_singleton.mp hitem
    refine ⟨_, rfl, ?_⟩
    rw [demand, hplacements, Finset.sum_singleton]
    decide +kernel

/-- Six of five. -/
def tooMany : List Task :=
  let items : List OrderLineItem := [{ sku := "A", qty := 6, unitPriceCents := 500 }]
  let lines : List ReservationLine := [{ sku := "A", qty := 6 }]
  [.createOrder customer₁ items "c",
    .command .order (saleCommand 0 (uuidOf 1) .createOrder
      { orderId := some (uuidOf 0), customerId := some customer₁, items := some items }),
    .relay .order (rowId 5 1),
    saleEvent .orderEvents (rowId 5 1) .orderCreated (uuidOf 0)
      { orderId := some (uuidOf 0), customerId := some customer₁, items := some items
        totalCents := some 3000 },
    .command .inventory (saleCommand 1 (uuidOf 9) .reserveStock
      { orderId := some (uuidOf 0), lines := some lines })]

theorem reach_tooMany : Reach (shopSystem fiveInStock) anything
    (.idle ((shopSystem fiveInStock).runs allWell tooMany ⟨fiveInStock, []⟩)) := by
  refine reach_shop (by decide +kernel) fun t ht => ?_
  obtain rfl | ht := List.mem_cons.mp ht
  · exact whole_request (n := 6) (by decide)
  · simp only [List.mem_cons, List.not_mem_nil, or_false] at ht
    rcases ht with rfl | rfl | rfl | rfl
    all_goals trivial

/-- Six were asked for, and there are five. -/
theorem outOfStock_tooMany : ∃ s : LockState, Scarce fiveInStock s.base.shared "A" := by
  obtain ⟨rows, hrows⟩ := Consistent.stream (Protocol.sound
    (shopSystem_keeps onlyStocked_fiveInStock) reach_tooMany).inv .inventory (uuidOf 0)
  have hfailed : (Store.row ((shopSystem fiveInStock).runs allWell tooMany ⟨fiveInStock, []⟩).db
      (.eventStore .inventory (uuidOf 0) 1)).map EventStoreRow.event = some (.inventoryReservationFailed
        { orderId := (uuidOf 0), sku := "A", reason := "Requested 6 of \"A\", only 5 available" }) := by
    decide +kernel
  obtain ⟨r, hr, hevent⟩ := Option.map_eq_some_iff.mp hfailed
  have hmem : r ∈ rows := List.mem_of_getElem? ((hrows.2 0).symm.trans hr)
  exact ⟨_, outOfStock_true fiveInStock onlyStocked_fiveInStock _ reach_tooMany.withLocks (uuidOf 0)
    rows hrows r hmem _ hevent⟩

end Runs

end Saganova
