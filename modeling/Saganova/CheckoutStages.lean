import Saganova.CheckoutSteps

/-!
# How far a saga is

The row of a saga is at the reservation, at the payment or final (`stage`), and
waits for what one command brings about (`awaits`).  A delivery never takes a
row back (`Reaction.stage_le`); a row that moves on has its new command
published with it (`Reaction.awaits`); and the event that a row waits for does
move it on (`stage_of_effect`).

So the rows are as far as the commands published show (`SagaProgress`), and a
published event never comes before its saga is ready for it
(`reached_of_announced`).
-/

namespace Saganova

open Concurrency Decision

namespace SagaInstanceRow

/-- 0 while stock is reserved, 1 while the payment is authorized, 2 at the end. -/
def stage (row : SagaInstanceRow) : ℕ :=
  if row.status = .completed ∨ row.status = .compensated then 2 else row.currentStepIndex

/-- The command published last. -/
def awaits (row : SagaInstanceRow) : CommandType :=
  if row.status = .completed then .confirmOrder
  else if row.status = .compensated then .cancelOrder
  else if row.currentStepIndex = 0 then .reserveStock
  else .authorizePayment

variable {row : SagaInstanceRow}

theorem stage_final (h : row.status = .completed ∨ row.status = .compensated) : row.stage = 2 :=
  if_pos h

theorem stage_open (h : row.Open) : row.stage = row.currentStepIndex := if_neg h

theorem stage_le (h : row.currentStepIndex ≤ 1) : row.stage ≤ 2 := by
  unfold stage
  split
  · exact le_refl 2
  · omega

section Rows

variable (row : SagaInstanceRow) (context : OrderFulfillmentContext) (time : Time)
  (correlationId : String)

@[simp] theorem stage_advancedRow : (advancedRow row context time correlationId).stage = 1 := rfl

@[simp] theorem stage_completedRow : (completedRow row context time correlationId).stage = 2 := rfl

@[simp] theorem stage_cancelledRow (step : String) :
    (cancelledRow row context step time correlationId).stage = 2 := rfl

@[simp] theorem stage_resaved : ({ row with correlationId } : SagaInstanceRow).stage = row.stage := rfl

end Rows

end SagaInstanceRow

/-- The stage of a saga that has taken an event of the type. -/
def stageAfter : EventType → Option ℕ
  | .orderCreated => some 0
  | .inventoryReserved | .inventoryReservationFailed => some 1
  | .paymentAuthorized | .paymentDeclined => some 2
  | _ => none

theorem stageAfter_zero {type : EventType} : stageAfter type = some 0 ↔ type = .orderCreated := by
  cases type <;> simp [stageAfter]

theorem stageAfter_one {type : EventType} : stageAfter type = some 1 ↔
    type = .inventoryReserved ∨ type = .inventoryReservationFailed := by
  cases type <;> simp [stageAfter]

theorem stageAfter_two {type : EventType} : stageAfter type = some 2 ↔
    type = .paymentAuthorized ∨ type = .paymentDeclined := by
  cases type <;> simp [stageAfter]

theorem stageAfter_le {type : EventType} {n : ℕ} (h : stageAfter type = some n) : n ≤ 2 := by
  cases type <;> simp [stageAfter] at h <;> omega

/-! ## Reactions -/

section Reaction

variable {e : EventEnvelope} {o : Uuid} {st : Stamps} {row row' : Option SagaInstanceRow}
  {sent : List CommandEnvelope}

theorem Reaction.index_le (h : Reaction (.ok ()) e o st row row' sent)
    (hrow : ∀ r, row = some r → r.currentStepIndex ≤ 1) :
    ∀ r', row' = some r' → r'.currentStepIndex ≤ 1 := by
  intro r' hr'
  obtain ⟨-, hzero⟩ | ⟨r, hr, hsame | ⟨-, hone, -⟩⟩ := h.index r' hr'
  · omega
  · have hle := hrow r hr
    omega
  · omega

/-- **A saga never goes back.** -/
theorem Reaction.stage_le (h : Reaction (.ok ()) e o st row row' sent)
    (hrow : ∀ r, row = some r → r.currentStepIndex ≤ 1) :
    ∀ r, row = some r → ∃ r', row' = some r' ∧ r.stage ≤ r'.stage := by
  intro r hr
  have hle := SagaInstanceRow.stage_le (hrow r hr)
  cases h with
  | nothing => exact ⟨r, hr, le_refl _⟩
  | started => nomatch hr
  | resaved =>
    obtain rfl := Option.some.inj hr
    exact ⟨_, rfl, le_refl _⟩
  | advanced _ hopen hindex =>
    obtain rfl := Option.some.inj hr
    refine ⟨_, rfl, ?_⟩
    rw [SagaInstanceRow.stage_open hopen, hindex]
    exact Nat.zero_le _
  | completed =>
    refine ⟨_, rfl, ?_⟩
    rw [SagaInstanceRow.stage_completedRow]
    exact hle
  | cancelled =>
    refine ⟨_, rfl, ?_⟩
    rw [SagaInstanceRow.stage_cancelledRow]
    exact hle

/-- A row waits for what it waited for, or for what the delivery published. -/
theorem Reaction.awaits (h : Reaction (.ok ()) e o st row row' sent)
    (hid : e.payload.orderId = some o) :
    ∀ r', row' = some r' → (∃ r, row = some r ∧ r'.awaits = r.awaits) ∨
      ∃ c ∈ sent, c.type = r'.awaits ∧ c.payload.orderId = some o := by
  have hspread : ∀ r : SagaInstanceRow, (r.context.spread e.payload).orderId = some o :=
    fun r => Payload.spread_orderId_of_some hid
  intro r' hr'
  cases h with
  | nothing => exact .inl ⟨r', hr', rfl⟩
  | resaved =>
    obtain rfl := Option.some.inj hr'
    exact .inl ⟨_, rfl, rfl⟩
  | started =>
    obtain rfl := Option.some.inj hr'
    exact .inr ⟨_, List.mem_singleton_self _, rfl, rfl⟩
  | advanced =>
    obtain rfl := Option.some.inj hr'
    exact .inr ⟨_, List.mem_singleton_self _, rfl, hspread _⟩
  | completed =>
    obtain rfl := Option.some.inj hr'
    exact .inr ⟨_, List.mem_singleton_self _, rfl, hspread _⟩
  | cancelled =>
    obtain rfl := Option.some.inj hr'
    exact .inr ⟨_, List.mem_singleton_self _, rfl, hspread _⟩

/-- Once stock is asked for there is a row, and once money is, it is past the reservation. -/
theorem Reaction.asked (h : Reaction (.ok ()) e o st row row' sent) {c : CommandEnvelope}
    (hc : c ∈ sent) :
    ∃ r', row' = some r' ∧ (c.type = .authorizePayment → 1 ≤ r'.stage) := by
  cases h with
  | nothing => exact absurd hc List.not_mem_nil
  | resaved => exact absurd hc List.not_mem_nil
  | started =>
    refine ⟨_, rfl, fun htype => ?_⟩
    obtain rfl := List.mem_singleton.mp hc
    nomatch htype
  | advanced => exact ⟨_, rfl, fun _ => by simp⟩
  | completed => exact ⟨_, rfl, fun _ => by simp⟩
  | cancelled => exact ⟨_, rfl, fun _ => by simp⟩

end Reaction

/-! ## The event that a row waits for -/

section Effect

variable {e : EventEnvelope} {o : Uuid} {n : ℕ} {r : SagaInstanceRow}
  (correlationId : String) (st : Stamps)

/-- An event of the stage that the row is at, or of an earlier one. -/
theorem stage_of_event {eventType : EventType} (payload : Payload)
    (hn : stageAfter eventType = some (n + 1)) (hindex : r.currentStepIndex ≤ 1)
    (hstage : n ≤ r.stage) : ∃ r',
      ((decideEvent (some r) eventType payload).effect (.ok ()) correlationId st (some r)).1 =
        some r' ∧ n + 1 ≤ r'.stage := by
  have htwo := stageAfter_le hn
  by_cases hfinal : r.status = .completed ∨ r.status = .compensated
  · have hignore : decideEvent (some r) eventType payload = .ignore := if_pos hfinal
    rw [hignore]
    refine ⟨r, rfl, ?_⟩
    rw [SagaInstanceRow.stage_final hfinal]
    exact htwo
  · rw [SagaInstanceRow.stage_open hfinal] at hstage
    simp only [decideEvent, if_neg hfinal]
    -- open, and at a step no earlier than that of the event
    obtain hzero | hone : r.currentStepIndex = 0 ∨ r.currentStepIndex = 1 := by omega
    · obtain rfl : n = 0 := by omega
      simp only [hzero]
      obtain rfl | rfl := stageAfter_one.mp hn
      · exact ⟨_, rfl, by simp⟩
      · exact ⟨_, rfl, by simp⟩
    · simp only [hone]
      obtain rfl | rfl : n = 0 ∨ n = 1 := by omega
      · -- a late event of the reservation: the row is written back
        have hresave : ¬ eventType = .paymentAuthorized ∧ ¬ eventType = .paymentDeclined := by
          obtain rfl | rfl := stageAfter_one.mp hn <;> simp
        rw [if_neg hresave.1, if_neg hresave.2]
        refine ⟨_, rfl, ?_⟩
        rw [SagaInstanceRow.stage_resaved, SagaInstanceRow.stage_open hfinal]
        omega
      · obtain rfl | rfl := stageAfter_two.mp hn
        · exact ⟨_, rfl, by simp⟩
        · exact ⟨_, rfl, by simp⟩

/-- **The event that a row waits for moves it on.** -/
theorem stage_of_effect {decision : Option SagaInstanceRow → Decision}
    (hdec : decisionOf e = some (o, decision)) (hn : stageAfter e.type = some n)
    {row : Option SagaInstanceRow}
    (hrow : ∀ k, n = k + 1 → ∃ r, row = some r ∧ r.currentStepIndex ≤ 1 ∧ k ≤ r.stage) :
    ∃ r', ((decision row).effect (.ok ()) correlationId st row).1 = some r' ∧ n ≤ r'.stage := by
  obtain ⟨-, ⟨htype, items, -, rfl⟩ | ⟨htype, -, rfl⟩⟩ := decisionOf_cases hdec
  · rw [htype] at hn
    obtain rfl := Option.some.inj hn
    cases row with
    | none => exact ⟨_, rfl, Nat.zero_le _⟩
    | some r => exact ⟨r, rfl, Nat.zero_le _⟩
  · obtain rfl | ⟨k, rfl⟩ : n = 0 ∨ ∃ k, n = k + 1 := by
      cases n with
      | zero => exact .inl rfl
      | succ k => exact .inr ⟨k, rfl⟩
    · exact absurd (stageAfter_zero.mp hn) htype
    · obtain ⟨r, rfl, hindex, hstage⟩ := hrow k rfl
      exact stage_of_event correlationId st e.payload hn hindex hstage

end Effect

/-! ## How far the sagas are -/

/-- The saga of the order is at the stage, or past it. -/
def ReachedStage (s : Shared) (o : Uuid) (n : ℕ) : Prop :=
  ∃ r, sagaRow s o = some r ∧ n ≤ r.stage

/-- Every saga waits for a command that was published, and is as far as the
commands show. -/
structure SagaProgress (s : Shared) : Prop where
  index : ∀ o r, sagaRow s o = some r → r.currentStepIndex ≤ 1
  awaited : ∀ o r, sagaRow s o = some r → Asked s r.awaits o
  reserving : ∀ o, Asked s .reserveStock o → ReachedStage s o 0
  authorizing : ∀ o, Asked s .authorizePayment o → ReachedStage s o 1

theorem SameSagas.reached {s s' : Shared} (h : SameSagas s s') {o : Uuid} {n : ℕ} :
    ReachedStage s' o n ↔ ReachedStage s o n := by
  unfold ReachedStage
  rw [h.rows]

/-- What the other tasks do. -/
theorem SagaProgress.same {s s' : Shared} (hs : SagaProgress s) (h : SameSagas s s')
    (hgrow : Grows s s') : SagaProgress s' where
  index o r hr := hs.index o r (by rwa [← h.rows])
  awaited o r hr := (hs.awaited o r (by rwa [← h.rows])).grow hgrow
  reserving o hasked := h.reached.mpr (hs.reserving o (h.asked _ o nofun hasked))
  authorizing o hasked := h.reached.mpr (hs.authorizing o (h.asked _ o nofun hasked))

/-- A command published for the order, by its place among the commands. -/
theorem asked_iff {s : Shared} (hprompt : PromptInv s) {type : CommandType} {o : Uuid} :
    Asked s type o ↔ ∃ c ∈ commandsOf s, c.type = type ∧ c.payload.orderId = some o := by
  constructor
  · rintro ⟨topic, c, hpublished, hrest⟩
    exact ⟨c, hprompt.commands topic c hpublished, hrest⟩
  · rintro ⟨c, hc, hrest⟩
    obtain ⟨task, key, hmem⟩ := mem_commandsOf.mp hc
    exact ⟨_, c, ⟨task, key, _, hmem⟩, hrest⟩

section Event

variable {d : Delivery} {s : Shared}

theorem ReachedStage.handle {o : Uuid} {n : ℕ} (h : ReachedStage s o n) (hs : SagaProgress s)
    (hd : d.published = .ok ()) : ReachedStage (handle s d) o n := by
  obtain ⟨r, hr, hn⟩ := h
  obtain ⟨-, hrows⟩ | ⟨orderId, st, sent, -, -, hothers, hreact⟩ := handle_reaction d s
  · exact ⟨r, (hrows o).trans hr, hn⟩
  · by_cases ho : o = orderId
    · subst ho
      rw [hd] at hreact
      obtain ⟨r', hr', hle⟩ := hreact.stage_le (hs.index o) r hr
      exact ⟨r', hr', hn.trans hle⟩
    · exact ⟨r, (hothers o ho).trans hr, hn⟩

theorem SagaProgress.handle (hs : SagaProgress s) (hd : d.published = .ok ())
    (hgrow : Grows s (handle s d)) (hprompt : PromptInv s) (hprompt' : PromptInv (handle s d)) :
    SagaProgress (handle s d) := by
  obtain ⟨hcommands, hrows⟩ | ⟨orderId, st, sent, hid, hcommands, hothers, hreact⟩ :=
    handle_reaction d s
  · refine hs.same ⟨hrows, fun type o _ hasked => ?_⟩ hgrow
    rw [asked_iff hprompt', hcommands] at hasked
    exact (asked_iff hprompt).mpr hasked
  · rw [hd] at hreact
    -- what was asked for before, or is asked for now
    have hasked : ∀ {type o}, Asked (Saganova.handle s d) type o →
        Asked s type o ∨ o = orderId ∧ ∃ c ∈ sent, c.type = type := by
      intro type o h
      obtain ⟨c, hc, htype, ho⟩ := (asked_iff hprompt').mp h
      rw [hcommands] at hc
      obtain hold | hnew := List.mem_append.mp hc
      · exact .inl ((asked_iff hprompt).mpr ⟨c, hold, htype, ho⟩)
      · obtain ⟨horder, -⟩ := hreact.sent_cases hid hnew
        exact .inr ⟨Option.some.inj (ho.symm.trans horder), c, hnew, htype⟩
    constructor
    · intro o r hr
      by_cases ho : o = orderId
      · subst ho
        exact hreact.index_le (hs.index o) r hr
      · exact hs.index o r ((hothers o ho).symm.trans hr)
    · intro o r hr
      by_cases ho : o = orderId
      · subst ho
        obtain ⟨r₀, hr₀, hsame⟩ | ⟨c, hc, htype, horder⟩ := hreact.awaits hid r hr
        · rw [hsame]
          exact (hs.awaited o r₀ hr₀).grow hgrow
        · refine (asked_iff hprompt').mpr ⟨c, ?_, htype, horder⟩
          rw [hcommands]
          exact List.mem_append_right _ hc
      · exact (hs.awaited o r ((hothers o ho).symm.trans hr)).grow hgrow
    · intro o h
      obtain hold | ⟨rfl, c, hc, -⟩ := hasked h
      · exact (hs.reserving o hold).handle hs hd
      · obtain ⟨r', hr', -⟩ := hreact.asked hc
        exact ⟨r', hr', Nat.zero_le _⟩
    · intro o h
      obtain hold | ⟨rfl, c, hc, htype⟩ := hasked h
      · exact (hs.authorizing o hold).handle hs hd
      · obtain ⟨r', hr', hstage⟩ := hreact.asked hc
        exact ⟨r', hr', hstage htype⟩

/-- A delivery of the event that the saga waits for moves it on. -/
theorem reached_of_handle {o : Uuid} {n : ℕ} {decision : Option SagaInstanceRow → Decision}
    (hs : SagaProgress s) (hd : d.published = .ok ())
    (hdec : decisionOf d.envelope = some (o, decision)) (hn : stageAfter d.envelope.type = some n)
    (hreached : ∀ k, n = k + 1 → ReachedStage s o k) : ReachedStage (handle s d) o n := by
  obtain ⟨hnone, -⟩ | ⟨orderId, decision', st, hdec', -, -, -, hrow⟩ := handle_effect d s
  · rw [hdec] at hnone
    nomatch hnone
  · obtain ⟨rfl, rfl⟩ := Prod.mk.inj (Option.some.inj (hdec.symm.trans hdec'))
    rw [hd] at hrow
    obtain ⟨r', hr', hle⟩ := stage_of_effect d.envelope.correlationId st hdec hn fun k hk => by
      obtain ⟨r, hr, hle⟩ := hreached k hk
      exact ⟨r, hr, hs.index o r hr, hle⟩
    exact ⟨r', hrow.trans hr', hle⟩

end Event

/-! ## What a published event shows -/

section Announced

variable {s : Shared} {o : Uuid}

theorem First.asked_reserveStock {event : InventoryEvent} (h : First .inventory s o event)
    (hI : CheckoutInv s) : Asked s .reserveStock o := by
  obtain ⟨r, more, hrows, -⟩ := h
  cases hI.streams _ _ _ hrows with
  | reserved _ hasked _ => exact hasked
  | reservationFailed hasked _ => exact hasked

theorem Authorized.asked {p : Uuid} {amountCents : Num} (h : Authorized s o p amountCents)
    (hI : CheckoutInv s) : Asked s .authorizePayment o := by
  obtain ⟨pspReference, r, more, hrows, hevent⟩ := h
  cases hI.streams _ _ _ hrows with
  | authorized _ hasked _ hevent' =>
    injection hevent.symm.trans hevent' with heq
    injection heq with _ ho _ _
    exact ho ▸ hasked
  | declined _ _ hevent' => nomatch hevent.symm.trans hevent'

theorem Declined.asked (h : Declined s o) (hI : CheckoutInv s) : Asked s .authorizePayment o := by
  obtain ⟨p, declineCode, reason, r, more, hrows, hevent⟩ := h
  cases hI.streams _ _ _ hrows with
  | authorized _ _ _ hevent' => nomatch hevent.symm.trans hevent'
  | declined hasked _ hevent' =>
    injection hevent.symm.trans hevent' with heq
    injection heq with _ ho _ _
    exact ho ▸ hasked

/-- The outcome of a command was published after the command. -/
theorem Announced.asked {type : EventType} {payload : Payload} (h : Announced s type payload)
    (hI : CheckoutInv s) (ho : payload.orderId = some o) :
    (stageAfter type = some 1 → Asked s .reserveStock o) ∧
    (stageAfter type = some 2 → Asked s .authorizePayment o) := by
  cases h with
  | orderCreated _ => exact ⟨nofun, nofun⟩
  | orderConfirmed => exact ⟨nofun, nofun⟩
  | orderCancelled => exact ⟨nofun, nofun⟩
  | inventoryReserved _ hreserved =>
    obtain rfl := Option.some.inj ho
    obtain ⟨_, hfirst⟩ := hreserved
    exact ⟨fun _ => hfirst.asked_reserveStock hI, nofun⟩
  | inventoryReservationFailed hfailed =>
    obtain rfl := Option.some.inj ho
    obtain ⟨_, _, hfirst⟩ := hfailed
    exact ⟨fun _ => hfirst.asked_reserveStock hI, nofun⟩
  | paymentAuthorized _ hauthorized =>
    obtain rfl := Option.some.inj ho
    exact ⟨nofun, fun _ => hauthorized.asked hI⟩
  | paymentDeclined hdeclined =>
    obtain rfl := Option.some.inj ho
    exact ⟨nofun, fun _ => hdeclined.asked hI⟩

theorem Placed.ne {customerId : Uuid} {items : List OrderLineItem}
    (h : Placed s o customerId items) (hprompt : PromptInv s) : o ≠ "" := by
  obtain ⟨⟨_, hdrawn⟩, -⟩ := h
  exact hprompt.ids _ o hdrawn

theorem Asked.ne {type : CommandType} (h : Asked s type o) (hI : CheckoutInv s)
    (hprompt : PromptInv s) (htype : type = .reserveStock ∨ type = .authorizePayment) : o ≠ "" := by
  obtain ⟨topic, ⟨id, type', version, correlationId, issuedAt, payload⟩, hpublished, rfl, ho⟩ := h
  cases hI.commands topic _ hpublished with
  | createOrder hplaced =>
    obtain rfl := Option.some.inj ho
    exact hplaced.ne hprompt
  | reserveStock hplaced =>
    obtain rfl := Option.some.inj ho
    exact hplaced.ne hprompt
  | authorizePayment hplaced _ =>
    obtain rfl := Option.some.inj ho
    exact hplaced.ne hprompt
  | confirmOrder hplaced _ =>
    obtain rfl := Option.some.inj ho
    exact hplaced.ne hprompt
  | cancelOrder _ => exact absurd htype (by simp)

/-- A published event about an order is not ignored. -/
theorem decisionOf_of_announced {e : EventEnvelope} (he : Announced s e.type e.payload)
    (ho : e.payload.orderId = some o) (hne : o ≠ "") : ∃ decision, decisionOf e = some (o, decision) := by
  obtain ⟨id, type, correlationId, aggregateId, payload⟩ := e
  by_cases hcreated : type = .orderCreated
  · subst hcreated
    cases he with
    | orderCreated _ =>
      obtain rfl := Option.some.inj ho
      exact ⟨_, rfl⟩
  · have hfilter : payload.orderId.filter (· ≠ "") = some o :=
      Option.filter_eq_some_iff.mpr ⟨ho, by simpa using hne⟩
    refine ⟨fun row => decideEvent row type payload, ?_⟩
    unfold decisionOf
    simp only [if_neg hcreated, hfilter]

/-- **A published event that is handled moves its saga on.** -/
theorem reached_of_announced {d : Delivery} {n : ℕ} (hI : CheckoutInv s) (hprompt : PromptInv s)
    (hs : SagaProgress s) (hd : d.published = .ok ())
    (he : Announced s d.envelope.type d.envelope.payload)
    (ho : d.envelope.payload.orderId = some o) (hn : stageAfter d.envelope.type = some n) :
    ReachedStage (handle s d) o n := by
  obtain ⟨hreserve, hauthorize⟩ := he.asked hI ho
  obtain rfl | rfl | rfl : n = 0 ∨ n = 1 ∨ n = 2 := by
    have hle := stageAfter_le hn
    omega
  · have hne : o ≠ "" := by
      have htype := stageAfter_zero.mp hn
      rw [htype] at he
      generalize d.envelope.payload = payload at he ho
      cases he with
      | orderCreated hplaced =>
        obtain rfl := Option.some.inj ho
        exact hplaced.ne hprompt
    obtain ⟨decision, hdec⟩ := decisionOf_of_announced he ho hne
    exact reached_of_handle hs hd hdec hn fun k hk => by omega
  · have hasked := hreserve hn
    obtain ⟨decision, hdec⟩ := decisionOf_of_announced he ho (hasked.ne hI hprompt (.inl rfl))
    refine reached_of_handle hs hd hdec hn fun k hk => ?_
    obtain rfl : k = 0 := by omega
    exact hs.reserving o hasked
  · have hasked := hauthorize hn
    obtain ⟨decision, hdec⟩ := decisionOf_of_announced he ho (hasked.ne hI hprompt (.inr rfl))
    refine reached_of_handle hs hd hdec hn fun k hk => ?_
    obtain rfl : k = 1 := by omega
    exact hs.authorizing o hasked

end Announced

end Saganova
