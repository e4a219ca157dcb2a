import Saganova.OrchestratorOrders

/-!
# What the orchestrator says about one order

`speaksCheckout`: the commands of an order are a word of `checkoutLanguage`,
each published on the event that its step waits for, and none after the last.
`Spoken` ties the order's row to the word so far.

`carriesItsOrder`: the commands carry what the order's first OrderCreated event
says, whatever values the events after it hold.
-/

namespace Saganova

open Concurrency

/-! ## The language -/

/-- The command types of an order, `ReleaseInventory` left out. -/
def checkoutLanguage : List (List CommandType) :=
  [ [],
    [.reserveStock],
    [.reserveStock, .cancelOrder],
    [.reserveStock, .authorizePayment],
    [.reserveStock, .authorizePayment, .confirmOrder],
    [.reserveStock, .authorizePayment, .cancelOrder] ]

/-- What has been said about an order, by its row. -/
def Spoken : Option SagaInstanceRow → List CommandType → Prop
  | none, types => types = []
  | some row, types =>
    (row.Open ∧ row.currentStepIndex = 0 ∧ types = [.reserveStock]) ∨
    (row.Open ∧ row.currentStepIndex = 1 ∧ types = [.reserveStock, .authorizePayment]) ∨
    (¬ row.Open ∧ types ∈ checkoutLanguage)

section Reaction

variable {published : Except Err Unit} {e : EventEnvelope} {o : Uuid} {st : Stamps}
  {row row' : Option SagaInstanceRow} {sent : List CommandEnvelope} {types : List CommandType}

theorem Spoken.zero {r : SagaInstanceRow} (h : Spoken (some r) types) (hopen : r.Open)
    (hindex : r.currentStepIndex = 0) : types = [.reserveStock] := by
  rcases h with ⟨-, -, h⟩ | ⟨-, hone, -⟩ | ⟨hclosed, -⟩
  · exact h
  · omega
  · exact absurd hopen hclosed

theorem Spoken.one {r : SagaInstanceRow} (h : Spoken (some r) types) (hopen : r.Open)
    (hindex : r.currentStepIndex = 1) : types = [.reserveStock, .authorizePayment] := by
  rcases h with ⟨-, hzero, -⟩ | ⟨-, -, h⟩ | ⟨hclosed, -⟩
  · omega
  · exact h
  · exact absurd hopen hclosed

theorem sends_types {c : CommandEnvelope} (type : CommandType) (hc : c.type = type)
    (hrefused : types ∈ checkoutLanguage) (hsent : types ++ [type] ∈ checkoutLanguage) :
    types ++ (sends published c).map (·.type) ∈ checkoutLanguage := by
  unfold sends
  split
  · rwa [List.map_singleton, hc]
  · rwa [List.map_nil, List.append_nil]

/-- Every reaction goes on with the word. -/
theorem Spoken.reaction (h : Spoken row types) (hreact : Reaction published e o st row row' sent) :
    Spoken row' (types ++ sent.map (·.type)) := by
  cases hreact with
  | nothing => rwa [List.map_nil, List.append_nil]
  | resaved => rwa [List.map_nil, List.append_nil]
  | started =>
    rw [show types = [] from h]
    exact .inl ⟨by simp [SagaInstanceRow.Open, Decision.startedRow], rfl, rfl⟩
  | advanced _ hopen hindex =>
    rw [h.zero hopen hindex]
    exact .inr (.inl ⟨by simp [SagaInstanceRow.Open, Decision.advancedRow], rfl, rfl⟩)
  | completed hopen hindex =>
    rw [h.one hopen hindex]
    exact .inr (.inr ⟨closed_completed _ _ _ _,
      sends_types .confirmOrder rfl (by decide) (by decide)⟩)
  | cancelled hopen hstep =>
    refine .inr (.inr ⟨closed_cancelled _ _ _ _ _, ?_⟩)
    rcases steps_cases hstep with ⟨hindex, -⟩ | ⟨hindex, -⟩
    · rw [h.zero hopen hindex]
      exact sends_types .cancelOrder rfl (by decide) (by decide)
    · rw [h.one hopen hindex]
      exact sends_types .cancelOrder rfl (by decide) (by decide)

/-- A saga that has ended neither changes nor speaks. -/
theorem Reaction.closed (h : Reaction published e o st row row' sent) {r : SagaInstanceRow}
    (hr : row = some r) (hclosed : ¬ r.Open) : row' = row ∧ sent = [] := by
  cases h with
  | nothing => exact ⟨rfl, rfl⟩
  | started => cases hr
  | resaved hopen => cases hr; exact absurd hopen hclosed
  | advanced _ hopen => cases hr; exact absurd hopen hclosed
  | completed hopen => cases hr; exact absurd hopen hclosed
  | cancelled hopen => cases hr; exact absurd hopen hclosed

/-- `ReserveStock` answers the OrderCreated that opens the saga. -/
theorem Reaction.reserve (h : Reaction published e o st row row' sent) {c : CommandEnvelope}
    (hc : c ∈ sent) (htype : c.type = .reserveStock) :
    e.type = .orderCreated ∧ row = none ∧ published = .ok () ∧ e.payload.items.isSome ∧
      c.payload.lines =
        e.payload.items.map (·.map fun i => { sku := i.sku, qty := i.qty }) := by
  cases h with
  | nothing => cases hc
  | resaved => cases hc
  | started hp hevent hitems =>
    rw [List.mem_singleton.mp hc, hitems]
    exact ⟨hevent, rfl, hp, rfl, rfl⟩
  | advanced => rw [List.mem_singleton.mp hc] at htype; cases htype
  | completed => rw [(mem_sends hc).2] at htype; cases htype
  | cancelled => rw [(mem_sends hc).2] at htype; cases htype

/-- `AuthorizePayment` answers InventoryReserved. -/
theorem Reaction.authorize (h : Reaction published e o st row row' sent) {c : CommandEnvelope}
    (hc : c ∈ sent) (htype : c.type = .authorizePayment) :
    e.type = .inventoryReserved ∧ ∃ r, row = some r ∧ r.Open ∧
      c.payload.customerId = (r.context.spread e.payload).customerId ∧
      c.payload.amountCents = (r.context.spread e.payload).amountCents := by
  cases h with
  | nothing => cases hc
  | resaved => cases hc
  | started => rw [List.mem_singleton.mp hc] at htype; cases htype
  | advanced _ hopen _ hevent =>
    rw [List.mem_singleton.mp hc]
    exact ⟨hevent, _, rfl, hopen, rfl, rfl⟩
  | completed => rw [(mem_sends hc).2] at htype; cases htype
  | cancelled => rw [(mem_sends hc).2] at htype; cases htype

/-- `ConfirmOrder` answers PaymentAuthorized. -/
theorem Reaction.confirm (h : Reaction published e o st row row' sent) {c : CommandEnvelope}
    (hc : c ∈ sent) (htype : c.type = .confirmOrder) :
    e.type = .paymentAuthorized ∧ ∃ r r', row = some r ∧ r.Open ∧ r.currentStepIndex = 1 ∧
      row' = some r' ∧ r.history.length < r'.history.length ∧
      c.payload.paymentId = (r.context.spread e.payload).paymentId := by
  cases h with
  | nothing => cases hc
  | resaved => cases hc
  | started => rw [List.mem_singleton.mp hc] at htype; cases htype
  | advanced => rw [List.mem_singleton.mp hc] at htype; cases htype
  | completed hopen hindex hevent =>
    refine ⟨hevent, _, _, rfl, hopen, hindex, rfl, ?_, by rw [(mem_sends hc).2]; rfl⟩
    simp [Decision.completedRow]
  | cancelled => rw [(mem_sends hc).2] at htype; cases htype

end Reaction

theorem spoken (ds : List Delivery) (o : Uuid) :
    Spoken (sagaRow (after ds) o) ((commandsFor o (after ds)).map (·.type)) := by
  induction ds using List.reverseRecOn with
  | nil => rfl
  | append_singleton ds d ih =>
    rw [after_snoc]
    rcases handle_order_reaction d (after ds) o with ⟨hrow, hcommands⟩ |
      ⟨st, sent, -, hcommands, hreact⟩
    · rwa [hrow, hcommands]
    · rw [hcommands, List.map_append]
      exact ih.reaction hreact

/-- Once ended, a saga stays as it is. -/
theorem closed_of_isPrefix {pre ds : List Delivery} (h : pre <+: ds) {o : Uuid}
    {row : SagaInstanceRow} (hrow : sagaRow (after pre) o = some row) (hclosed : ¬ row.Open) :
    sagaRow (after ds) o = some row ∧ commandsFor o (after ds) = commandsFor o (after pre) := by
  obtain ⟨post, rfl⟩ := h
  induction post using List.reverseRecOn with
  | nil => rw [List.append_nil]; exact ⟨hrow, rfl⟩
  | append_singleton post d ih =>
    obtain ⟨hrow', hcommands'⟩ := ih
    rw [← List.append_assoc, after_snoc]
    rcases handle_order_reaction d (after (pre ++ post)) o with ⟨hr, hc⟩ |
      ⟨st, sent, -, hc, hreact⟩
    · exact ⟨hr.trans hrow', hc.trans hcommands'⟩
    · obtain ⟨hr, rfl⟩ := hreact.closed hrow' hclosed
      rw [List.append_nil] at hc
      exact ⟨hr.trans hrow', hc.trans hcommands'⟩

/-- The last word ends the saga. -/
theorem closed_of_last {ds : List Delivery} {o : Uuid} {c : CommandEnvelope}
    (hc : c ∈ commandsFor o (after ds)) (htype : c.type = .confirmOrder ∨ c.type = .cancelOrder) :
    ∃ row, sagaRow (after ds) o = some row ∧ ¬ row.Open := by
  have hmem : c.type ∈ (commandsFor o (after ds)).map (·.type) := List.mem_map_of_mem hc
  have hspoken := spoken ds o
  cases hrow : sagaRow (after ds) o with
  | none =>
    rw [hrow] at hspoken
    rw [show _ = [] from hspoken] at hmem
    cases hmem
  | some row =>
    rw [hrow] at hspoken
    refine ⟨row, rfl, fun hopen => ?_⟩
    rcases hspoken with ⟨-, -, htypes⟩ | ⟨-, -, htypes⟩ | ⟨hclosed, -⟩
    · rw [htypes] at hmem
      rcases htype with h | h <;> simp [h] at hmem
    · rw [htypes] at hmem
      rcases htype with h | h <;> simp [h] at hmem
    · exact hclosed hopen

/-- The commands that the delivery after a run publishes. -/
def publishedBy (pre : List Delivery) (d : Delivery) : List CommandEnvelope :=
  (commandsOf (handle (after pre) d)).drop (commandsOf (after pre)).length

/-- A command for an order is published in reaction to a message of the order. -/
theorem reaction_of_published {pre : List Delivery} {d : Delivery} {c : CommandEnvelope}
    (hc : c ∈ publishedBy pre d) {o : Uuid} (ho : c.payload.orderId = some o) :
    d.envelope.payload.orderId = some o ∧ ∃ st, Reaction d.published d.envelope o st
      (sagaRow (after pre) o) (sagaRow (handle (after pre) d) o) (publishedBy pre d) := by
  rcases handle_reaction d (after pre) with ⟨hcommands, -⟩ |
    ⟨id, st, sent, hid, hcommands, -, hreact⟩
  · unfold publishedBy at hc
    rw [hcommands, List.drop_length] at hc
    cases hc
  · have hsent : publishedBy pre d = sent := by
      unfold publishedBy
      rw [hcommands, List.drop_left]
    rw [hsent] at hc ⊢
    rw [(hreact.sent_cases hid hc).1] at ho
    cases ho
    exact ⟨hid, st, hreact⟩

/-- The commands of an order in the run. -/
structure SpeaksCheckout (ds : List Delivery) (o : Uuid) : Prop where
  language : ((commandsFor o (after ds)).map (·.type)).filter (· ≠ .releaseInventory) ∈
    checkoutLanguage
  authorizes : ∀ pre d, pre ++ [d] <+: ds → ∀ c ∈ publishedBy pre d,
    c.payload.orderId = some o → c.type = .authorizePayment →
    d.envelope.type = .inventoryReserved ∧ d.envelope.payload.orderId = some o
  confirms : ∀ pre d, pre ++ [d] <+: ds → ∀ c ∈ publishedBy pre d,
    c.payload.orderId = some o → c.type = .confirmOrder →
    d.envelope.type = .paymentAuthorized ∧ d.envelope.payload.orderId = some o ∧
      ∃ c' ∈ commandsFor o (after pre), c'.type = .authorizePayment
  ends : ∀ pre, pre <+: ds → ∀ c ∈ commandsFor o (after pre),
    c.type = .confirmOrder ∨ c.type = .cancelOrder →
    commandsFor o (after ds) = commandsFor o (after pre)
  /-- The reason names the step at which the saga stood and whose failure event
  it accepted. -/
  cancels : ∀ pre d, pre ++ [d] <+: ds → ∀ c ∈ publishedBy pre d,
    c.payload.orderId = some o → c.type = .cancelOrder →
    ∃ row step row' time, sagaRow (after pre) o = some row ∧
      orderFulfillmentSaga.steps[row.currentStepIndex]? = some step ∧
      d.envelope.type = step.failureEvent ∧ d.envelope.payload.orderId = some o ∧
      sagaRow (after (pre ++ [d])) o = some row' ∧
      row'.history = row.history ++ [{ step := step.name, event := .failed, at_ := time }] ∧
      c.payload.reason = some s!"Saga failed at step \"{step.name}\""

/-- No word of an order holds `ReleaseInventory`. -/
theorem spoken_mem {row : Option SagaInstanceRow} {types : List CommandType}
    (h : Spoken row types) : types ∈ checkoutLanguage := by
  cases row with
  | none =>
    rw [show types = [] from h]
    decide
  | some row =>
    rcases h with ⟨-, -, rfl⟩ | ⟨-, -, rfl⟩ | ⟨-, h⟩
    · decide
    · decide
    · exact h

/-- **The orchestrator's command language.** -/
theorem speaksCheckout (ds : List Delivery) (o : Uuid) : SpeaksCheckout ds o where
  language := by
    have hword := spoken_mem (spoken ds o)
    have hrelease : ∀ types ∈ checkoutLanguage, types.filter (· ≠ .releaseInventory) = types := by
      decide
    rwa [hrelease _ hword]
  authorizes := fun pre d _ c hc ho htype => by
    obtain ⟨hid, st, hreact⟩ := reaction_of_published hc ho
    exact ⟨(hreact.authorize hc htype).1, hid⟩
  confirms := fun pre d _ c hc ho htype => by
    obtain ⟨hid, st, hreact⟩ := reaction_of_published hc ho
    obtain ⟨hevent, row, -, hrow, hopen, hindex, -⟩ := hreact.confirm hc htype
    refine ⟨hevent, hid, ?_⟩
    have hspoken := spoken pre o
    rw [hrow] at hspoken
    have hmem : CommandType.authorizePayment ∈ (commandsFor o (after pre)).map (·.type) := by
      rw [hspoken.one hopen hindex]
      decide
    exact List.mem_map.mp hmem
  ends := fun pre hpre c hc htype => by
    obtain ⟨row, hrow, hclosed⟩ := closed_of_last hc htype
    exact (closed_of_isPrefix hpre hrow hclosed).2
  cancels := fun pre d _ c hc ho htype => by
    obtain ⟨hid, st, hreact⟩ := reaction_of_published hc ho
    obtain ⟨-, row, step, hrow, -, hstep, hevent, hrow', hpayload⟩ := hreact.cancel hc htype
    exact ⟨row, step, _, st.time, hrow, hstep, hevent, hid, by rwa [after_snoc], rfl, by rw [hpayload]⟩

/-! ## What the commands carry -/

/-- The payload cut down to the fields that the class of its event declares. -/
def Payload.declared (p : Payload) : EventType → Payload
  | .orderCreated =>
    { orderId := p.orderId, customerId := p.customerId, items := p.items
      totalCents := p.totalCents }
  | .orderConfirmed =>
    { orderId := p.orderId, customerId := p.customerId, paymentId := p.paymentId }
  | .orderCancelled =>
    { orderId := p.orderId, customerId := p.customerId, reason := p.reason }
  | .inventoryReserved =>
    { reservationId := p.reservationId, orderId := p.orderId, lines := p.lines }
  | .inventoryReservationFailed => { orderId := p.orderId, sku := p.sku, reason := p.reason }
  | .inventoryReleased => { reservationId := p.reservationId, orderId := p.orderId }
  | .paymentAuthorized =>
    { paymentId := p.paymentId, orderId := p.orderId, amountCents := p.amountCents
      pspReference := p.pspReference }
  | .paymentDeclined =>
    { paymentId := p.paymentId, orderId := p.orderId, customerId := p.customerId
      declineCode := p.declineCode, reason := p.reason }
  | .paymentRefunded =>
    { paymentId := p.paymentId, orderId := p.orderId, customerId := p.customerId
      amountCents := p.amountCents, reason := p.reason }
  -- no class
  | .other _ => p

def EventEnvelope.Declared (e : EventEnvelope) : Prop := e.payload = e.payload.declared e.type

instance (e : EventEnvelope) : Decidable e.Declared := inferInstanceAs (Decidable (_ = _))

/-- An OrderCreated event of the order, handled to its end: it has the items
that `dispatch` maps over, and the broker takes `ReserveStock`. -/
def Delivery.creates (o : Uuid) (d : Delivery) : Bool :=
  d.envelope.type = .orderCreated ∧ d.envelope.payload.orderId = some o ∧
    d.envelope.payload.items.isSome ∧ d.published = .ok ()

/-- The order's first OrderCreated event. -/
def firstCreated (ds : List Delivery) (o : Uuid) : Option EventEnvelope :=
  (ds.find? (·.creates o)).map (·.envelope)

/-- The delivery after `pre` is a PaymentAuthorized event that the order's saga
accepts. -/
def AcceptsPayment (pre : List Delivery) (d : Delivery) (o : Uuid) : Prop :=
  d.envelope.type = .paymentAuthorized ∧ d.envelope.payload.orderId = some o ∧
    Accepts (after pre) d

/-- A command carries the data of its order: the lines, customer and total of
the first OrderCreated event, and the payment of the one PaymentAuthorized event
that the saga accepted. -/
structure CarriesItsOrder (ds : List Delivery) (o : Uuid) (c : CommandEnvelope) : Prop where
  lines : c.type = .reserveStock → ∃ e, firstCreated ds o = some e ∧
    c.payload.lines = e.payload.items.map (·.map fun i => { sku := i.sku, qty := i.qty })
  charge : c.type = .authorizePayment → ∃ e, firstCreated ds o = some e ∧
    c.payload.customerId = e.payload.customerId ∧ c.payload.amountCents = e.payload.totalCents
  payment : c.type = .confirmOrder → ∃ pre d, pre ++ [d] <+: ds ∧ AcceptsPayment pre d o ∧
    c.payload.paymentId = d.envelope.payload.paymentId ∧
    ∀ pre' d', pre' ++ [d'] <+: ds → AcceptsPayment pre' d' o → pre' = pre ∧ d' = d

/-- The order's saga as its first OrderCreated event opened it. -/
structure Opened (row : SagaInstanceRow) (e : EventEnvelope) : Prop where
  customerId : row.context.customerId = e.payload.customerId
  amountCents : row.context.amountCents = e.payload.totalCents
  paymentId : row.context.paymentId = none

theorem firstCreated_snoc (ds : List Delivery) (d : Delivery) (o : Uuid) :
    firstCreated (ds ++ [d]) o =
      (firstCreated ds o <|> if d.creates o then some d.envelope else none) := by
  unfold firstCreated
  rw [List.find?_append]
  cases h : ds.find? (·.creates o) with
  | some d' => rfl
  | none =>
    rw [List.find?_singleton]
    cases d.creates o <;> rfl

theorem firstCreated_mono {ds : List Delivery} {o : Uuid} {e : EventEnvelope}
    (h : firstCreated ds o = some e) (d : Delivery) : firstCreated (ds ++ [d]) o = some e := by
  rw [firstCreated_snoc, h]
  rfl

section Opening

variable {d : Delivery} {s : Shared} {o : Uuid}

/-- An OrderCreated event that finds no saga opens one. -/
theorem handle_creates (h : d.creates o = true) (hrow : sagaRow s o = none) :
    (sagaRow (handle s d) o).isSome := by
  simp only [Delivery.creates, decide_eq_true_eq] at h
  obtain ⟨htype, hid, hitems, hp⟩ := h
  obtain ⟨items, hitems⟩ := Option.isSome_iff_exists.mp hitems
  have hdec : decisionOf d.envelope = some (o, fun row => decideStart row
      (openingContext o items d.envelope.payload)) := by
    unfold decisionOf
    simp only [if_pos htype, hitems, hid]
    rfl
  rcases handle_effect d s with ⟨hnone, -⟩ | ⟨id, decision, st, hdec', -, -, -, hrow'⟩
  · rw [hdec] at hnone
    cases hnone
  · rw [hdec] at hdec'
    cases hdec'
    rw [hrow', hrow]
    simp only [decideStart, Decision.effect, if_pos hp]
    rfl

end Opening

/-- A declared InventoryReserved event leaves customer, amount and payment alone. -/
theorem Opened.spread {row : SagaInstanceRow} {e created : EventEnvelope} (h : Opened row created)
    (hdeclared : e.Declared) (htype : e.type = .inventoryReserved) (time : Time)
    (correlationId : String) :
    Opened (Decision.advancedRow row (row.context.spread e.payload) time correlationId) created := by
  unfold EventEnvelope.Declared at hdeclared
  rw [htype] at hdeclared
  rw [hdeclared]
  exact ⟨h.customerId, h.amountCents, h.paymentId⟩

/-- An order without a saga has had no OrderCreated event. -/
theorem firstCreated_of_none {ds : List Delivery} {o : Uuid} (h : sagaRow (after ds) o = none) :
    firstCreated ds o = none := by
  induction ds using List.reverseRecOn with
  | nil => rfl
  | append_singleton ds d ih =>
    rw [after_snoc] at h
    have hbefore : sagaRow (after ds) o = none := by
      rcases handle_order_reaction d (after ds) o with ⟨hrow, -⟩ | ⟨st, sent, -, -, hreact⟩
      · rw [← hrow, h]
      · by_contra hsome
        have := hreact.isSome (Option.isSome_iff_ne_none.mpr hsome)
        rw [h] at this
        cases this
    have hcreates : d.creates o = false := by
      by_contra hcreates
      have := handle_creates (Bool.not_eq_false _ ▸ hcreates) hbefore
      rw [h] at this
      cases this
    rw [firstCreated_snoc, ih hbefore, hcreates]
    rfl

/-- While the saga of an order is open it is the one that the order's first
OrderCreated event opened. -/
theorem opened_of_open {ds : List Delivery} (hdeclared : ∀ d ∈ ds, d.envelope.Declared) {o : Uuid}
    {row : SagaInstanceRow} (hrow : sagaRow (after ds) o = some row) (hopen : row.Open) :
    ∃ e, firstCreated ds o = some e ∧ Opened row e := by
  induction ds using List.reverseRecOn generalizing row with
  | nil => cases hrow
  | append_singleton ds d ih =>
    have hds := fun {row} => @ih (fun d' hd' => hdeclared d' (List.mem_append_left _ hd')) row
    rw [after_snoc] at hrow
    rcases handle_order_reaction d (after ds) o with ⟨hsame, -⟩ | ⟨st, sent, hid, -, hreact⟩
    · obtain ⟨e, he, hopened⟩ := hds (hsame.symm.trans hrow) hopen
      exact ⟨e, firstCreated_mono he d, hopened⟩
    · generalize hbefore : sagaRow (after ds) o = before at hreact
      rw [hrow] at hreact
      cases hreact with
      | nothing =>
        obtain ⟨e, he, hopened⟩ := hds hbefore hopen
        exact ⟨e, firstCreated_mono he d, hopened⟩
      | started hp hevent hitems =>
        have hcreates : d.creates o = true := by
          simp [Delivery.creates, hevent, hid, hitems, hp]
        refine ⟨d.envelope, ?_, rfl, rfl, rfl⟩
        rw [firstCreated_snoc, firstCreated_of_none hbefore, hcreates]
        rfl
      | resaved hopen' =>
        obtain ⟨e, he, hopened⟩ := hds hbefore hopen'
        exact ⟨e, firstCreated_mono he d, hopened.customerId, hopened.amountCents,
          hopened.paymentId⟩
      | advanced _ hopen' _ hevent =>
        obtain ⟨e, he, hopened⟩ := hds hbefore hopen'
        exact ⟨e, firstCreated_mono he d, hopened.spread (hdeclared d (by simp)) hevent _ _⟩
      | completed => exact absurd hopen (closed_completed _ _ _ _)
      | cancelled => exact absurd hopen (closed_cancelled _ _ _ _ _)

theorem firstCreated_of_isPrefix {pre ds : List Delivery} (h : pre <+: ds) {o : Uuid}
    {e : EventEnvelope} (he : firstCreated pre o = some e) : firstCreated ds o = some e := by
  obtain ⟨post, rfl⟩ := h
  induction post using List.reverseRecOn with
  | nil => rwa [List.append_nil]
  | append_singleton post d ih =>
    rw [← List.append_assoc]
    exact firstCreated_mono ih d

/-- Every command of an order was published by some delivery of the run. -/
theorem published_of_mem {ds : List Delivery} {o : Uuid} {c : CommandEnvelope}
    (h : c ∈ commandsFor o (after ds)) :
    c.payload.orderId = some o ∧ ∃ pre d, pre ++ [d] <+: ds ∧ c ∈ publishedBy pre d := by
  obtain ⟨hmem, ho⟩ := List.mem_filter.mp h
  refine ⟨by simpa using ho, ?_⟩
  clear h ho
  induction ds using List.reverseRecOn with
  | nil => cases hmem
  | append_singleton ds d ih =>
    refine exists_prefix_snoc.mpr ?_
    rw [after_snoc] at hmem
    rcases handle_reaction d (after ds) with ⟨hcommands, -⟩ |
      ⟨id, st, sent, -, hcommands, -⟩
    · rw [hcommands] at hmem
      exact .inl (ih hmem)
    · rw [hcommands, List.mem_append] at hmem
      refine hmem.imp ih fun hsent => ?_
      unfold publishedBy
      rwa [hcommands, List.drop_left]

/-- The payment that a saga accepts ends it. -/
theorem AcceptsPayment.ends {pre : List Delivery} {d : Delivery} {o : Uuid}
    (h : AcceptsPayment pre d o) :
    (∃ row, sagaRow (after pre) o = some row ∧ row.Open) ∧
      ∃ row', sagaRow (after (pre ++ [d])) o = some row' ∧ ¬ row'.Open := by
  obtain ⟨htype, hid, haccepts⟩ := h
  obtain ⟨id, st, sent, row', hid', hrow', hgrow, hreact⟩ := haccepts.reaction
  rw [hid] at hid'
  cases hid'
  rw [after_snoc]
  generalize sagaRow (after pre) o = row at hgrow hreact
  rw [hrow'] at hreact ⊢
  cases hreact with
  | nothing => exact absurd (hgrow _ rfl) (lt_irrefl _)
  | started _ hevent => rw [htype] at hevent; cases hevent
  | resaved => exact absurd (hgrow _ rfl) (lt_irrefl _)
  | advanced _ _ _ hevent => rw [htype] at hevent; cases hevent
  | completed hopen => exact ⟨⟨_, rfl, hopen⟩, _, rfl, closed_completed _ _ _ _⟩
  | cancelled _ hstep hevent =>
    rw [htype] at hevent
    rcases steps_cases hstep with ⟨-, rfl⟩ | ⟨-, rfl⟩ <;> cases hevent

/-- After it no other payment is accepted. -/
theorem AcceptsPayment.last {pre pre' : List Delivery} {d d' : Delivery} {o : Uuid}
    (h : AcceptsPayment pre d o) (h' : AcceptsPayment pre' d' o) : ¬ pre ++ [d] <+: pre' := by
  intro hhistory
  obtain ⟨row, hrow, hclosed⟩ := h.ends.2
  obtain ⟨row', hrow', hopen⟩ := h'.ends.1
  rw [(closed_of_isPrefix hhistory hrow hclosed).1] at hrow'
  cases hrow'
  exact hclosed hopen

theorem AcceptsPayment.unique {ds pre pre' : List Delivery} {d d' : Delivery} {o : Uuid}
    (hpre : pre ++ [d] <+: ds) (h : AcceptsPayment pre d o) (hpre' : pre' ++ [d'] <+: ds)
    (h' : AcceptsPayment pre' d' o) : pre' = pre ∧ d' = d := by
  have hsplit : ∀ {xs ys : List Delivery} {x y : Delivery}, xs ++ [x] = ys ++ [y] →
      xs = ys ∧ x = y := fun heq => by simpa using List.append_inj' heq rfl
  rcases List.prefix_or_prefix_of_prefix hpre' hpre with hle | hle
  · rcases List.prefix_concat_iff.mp hle with heq | hlt
    · exact hsplit heq
    · exact absurd hlt (h'.last h)
  · rcases List.prefix_concat_iff.mp hle with heq | hlt
    · exact hsplit heq.symm
    · exact absurd hlt (h.last h')

/-- **Step outcomes cannot change what is ordered or charged.** -/
theorem carriesItsOrder (ds : List Delivery) (hdeclared : ∀ d ∈ ds, d.envelope.Declared)
    (o : Uuid) : ∀ c ∈ commandsFor o (after ds), CarriesItsOrder ds o c := by
  intro c hc
  obtain ⟨ho, pre, d, hhistory, hpublished⟩ := published_of_mem hc
  obtain ⟨hid, st, hreact⟩ := reaction_of_published hpublished ho
  have hpre : pre <+: ds := (List.prefix_append pre [d]).trans hhistory
  have hdeclaredPre : ∀ d' ∈ pre, d'.envelope.Declared := fun d' hd' =>
    hdeclared d' (hpre.subset hd')
  have hd : d.envelope.Declared := hdeclared d (hhistory.subset (by simp))
  unfold EventEnvelope.Declared at hd
  refine ⟨fun htype => ?_, fun htype => ?_, fun htype => ?_⟩
  · obtain ⟨hevent, hrow, hp, hitems, hlines⟩ := hreact.reserve hpublished htype
    have hcreates : d.creates o = true := by
      simp [Delivery.creates, hevent, hid, hitems, hp]
    refine ⟨d.envelope, firstCreated_of_isPrefix hhistory ?_, hlines⟩
    rw [firstCreated_snoc, firstCreated_of_none hrow, hcreates]
    rfl
  · obtain ⟨hevent, row, hrow, hopen, hcustomer, hamount⟩ := hreact.authorize hpublished htype
    obtain ⟨e, he, hopened⟩ := opened_of_open hdeclaredPre hrow hopen
    rw [hevent] at hd
    refine ⟨e, firstCreated_of_isPrefix hpre he, ?_, ?_⟩
    · rw [hcustomer, hd]
      exact hopened.customerId
    · rw [hamount, hd]
      exact hopened.amountCents
  · obtain ⟨hevent, row, row', hrow, hopen, -, hrow', hgrow, hpayment⟩ :=
      hreact.confirm hpublished htype
    obtain ⟨e, he, hopened⟩ := opened_of_open hdeclaredPre hrow hopen
    have haccepts : AcceptsPayment pre d o :=
      ⟨hevent, hid, o, row', hrow', fun r hr => by rw [hrow] at hr; cases hr; exact hgrow⟩
    refine ⟨pre, d, hhistory, haccepts, ?_, fun pre' d' hpre' h' =>
      AcceptsPayment.unique hhistory haccepts hpre' h'⟩
    rw [hpayment]
    show (d.envelope.payload.paymentId <|> row.context.paymentId) = _
    rw [hopened.paymentId]
    cases d.envelope.payload.paymentId <;> rfl

/-- The payment of the checkout authorized. -/
def paidCheckout : Delivery :=
  checkoutMessage 2 .paymentEvents .paymentAuthorized
    { orderId := some order₁, paymentId := some payment₁, amountCents := some 700
      pspReference := some "psp" }

/-- The event's own amount is not the order's. -/
theorem carriesItsOrder_checkout :
    ∃ c ∈ commandsFor order₁ (after (reservedCheckout ++ [paidCheckout])), c.type = .confirmOrder ∧
      CarriesItsOrder (reservedCheckout ++ [paidCheckout]) order₁ c := by
  have hsome : ((commandsFor order₁ (after (reservedCheckout ++ [paidCheckout]))).find?
      (·.type = .confirmOrder)).isSome := by decide +kernel
  obtain ⟨c, hc⟩ := Option.isSome_iff_exists.mp hsome
  have hmem := List.mem_of_find?_eq_some hc
  exact ⟨c, hmem, by simpa using List.find?_some hc,
    carriesItsOrder _ (by decide +kernel) order₁ c hmem⟩

end Saganova
