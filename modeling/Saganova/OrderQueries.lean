import Saganova.CheckoutSafety
import Saganova.Concurrency.Later

/-!
# What the status API says

`GET /orders/:orderId` of the gateway reads the saga's row through the
orchestrator's `GET /sagas/:orderId`.  A checkout stands at one of five phases
(`CheckoutPhase`), each with its own status, step and history, and an answer
shows one of them: a row is only ever written by a decision, and a decision
takes a phase to the next one on one kind of event (`PhaseStep`).

What the phase claims of the order has happened by then (`orderStatus_true`):
the event that moved the saga rests on its facts, and facts stay, so a row
written from a stale read is no exception.  The reason that an order is
cancelled with names the step that failed (`cancelReason_true`).
-/

namespace Saganova

open Concurrency Decision

/-! ## The read API -/

structure OrderStatusResult where
  orderId : Uuid
  sagaStatus : SagaStatus
  currentStep : String
  history : List HistoryEntry
  deriving DecidableEq, Repr

def SagasController.stepName (currentStepIndex : ℕ) : String :=
  ["RESERVE_INVENTORY", "AUTHORIZE_PAYMENT"][currentStepIndex]?.getD "UNKNOWN"

def SagasController.getStatus (db : Db) (orderId : Uuid) : Except Err OrderStatusResult :=
  match Store.row db (.sagaInstance orderId) with
  | none => .error (.notFound s!"No saga found for order {orderId}")
  | some (entity : SagaInstanceRow) =>
    .ok { orderId, sagaStatus := entity.status
          currentStep := SagasController.stepName entity.currentStepIndex
          history := entity.history }

/-- What axios throws: the status of the response, if one came. -/
structure AxiosError where
  status : Option ℕ
  message : String
  deriving DecidableEq, Repr

/-- What `getOrderStatus` throws: Nest's `NotFoundException`, or the error it caught. -/
inductive OrderStatusError where
  | notFound (message : String)
  | rethrown (err : AxiosError)
  deriving DecidableEq, Repr

/-- How the orchestrator's answer reaches the gateway.  A call that times out or
does not connect has no response (`failure`). -/
def sagasResponse (failure : Option String) (db : Db) (orderId : Uuid) :
    Except AxiosError OrderStatusResult :=
  match failure with
  | some message => .error { status := none, message }
  | none =>
    match SagasController.getStatus db orderId with
    | .ok result => .ok result
    | .error (.notFound _) =>
      .error { status := some 404, message := "Request failed with status code 404" }
    | .error _ => .error { status := some 500, message := "Request failed with status code 500" }

def OrdersService.getOrderStatus (response : Except AxiosError OrderStatusResult) (orderId : Uuid) :
    Except OrderStatusError OrderStatusResult :=
  match response with
  | .ok data => .ok data
  | .error err =>
    if err.status = some 404 then .error (.notFound s!"No order found with id {orderId}")
    else .error (.rethrown err)

/-- Where the call succeeds, the gateway hands the orchestrator's answer on. -/
theorem getOrderStatus_ok {db : Db} {orderId : Uuid} {result : OrderStatusResult} :
    OrdersService.getOrderStatus (sagasResponse none db orderId) orderId = .ok result ↔
      SagasController.getStatus db orderId = .ok result := by
  unfold sagasResponse SagasController.getStatus
  generalize (Store.row db (.sagaInstance orderId) : Option SagaInstanceRow) = found
  cases found with
  | none => exact ⟨fun h => (nomatch h), fun h => (nomatch h)⟩
  | some entity => exact ⟨fun h => congrArg _ (Except.ok.inj h), fun h => congrArg _ (Except.ok.inj h)⟩

/-! ## Phases -/

/-- Where a checkout stands. -/
inductive CheckoutPhase where
  | reserving
  | charging
  | completed
  /-- the stock was not reserved -/
  | unreserved
  /-- the payment was declined -/
  | declined
  deriving DecidableEq, Repr

namespace CheckoutPhase

def sagaStatus : CheckoutPhase → SagaStatus
  | .reserving | .charging => .inProgress
  | .completed => .completed
  | .unreserved | .declined => .compensated

def stepIndex : CheckoutPhase → ℕ
  | .reserving | .unreserved => 0
  | .charging | .completed | .declined => 1

/-- The steps of the history, and how each went. -/
def history : CheckoutPhase → List (String × StepEvent)
  | .reserving => [("RESERVE_INVENTORY", .started)]
  | .charging => [("RESERVE_INVENTORY", .started), ("RESERVE_INVENTORY", .succeeded)]
  | .completed => [("RESERVE_INVENTORY", .started), ("RESERVE_INVENTORY", .succeeded),
      ("AUTHORIZE_PAYMENT", .succeeded)]
  | .unreserved => [("RESERVE_INVENTORY", .started), ("RESERVE_INVENTORY", .failed)]
  | .declined => [("RESERVE_INVENTORY", .started), ("RESERVE_INVENTORY", .succeeded),
      ("AUTHORIZE_PAYMENT", .failed)]

/-- The step that a cancelled checkout failed at. -/
def failedStep : CheckoutPhase → Option String
  | .unreserved => some "RESERVE_INVENTORY"
  | .declined => some "AUTHORIZE_PAYMENT"
  | _ => none

end CheckoutPhase

/-- The steps and outcomes of a history, without the times. -/
def HistoryEntry.outcome (h : HistoryEntry) : String × StepEvent := (h.step, h.event)

structure SagaInstanceRow.Stands (row : SagaInstanceRow) (phase : CheckoutPhase) : Prop where
  status : row.status = phase.sagaStatus
  index : row.currentStepIndex = phase.stepIndex
  history : row.history.map HistoryEntry.outcome = phase.history

/-- How a phase changes with an event. -/
inductive PhaseStep : CheckoutPhase → EventType → CheckoutPhase → Prop
  | stays (phase : CheckoutPhase) (type : EventType) : PhaseStep phase type phase
  | reserved : PhaseStep .reserving .inventoryReserved .charging
  | unreserved : PhaseStep .reserving .inventoryReservationFailed .unreserved
  | completed : PhaseStep .charging .paymentAuthorized .completed
  | declined : PhaseStep .charging .paymentDeclined .declined

section Phases

variable {row row' : SagaInstanceRow} {phase : CheckoutPhase} {correlationId : String}

theorem stands_startedRow (context : OrderFulfillmentContext) (time : Time) :
    (startedRow context time correlationId).Stands .reserving := ⟨rfl, rfl, rfl⟩

/-- An open row is at the first or at the second step. -/
theorem SagaInstanceRow.Stands.open_cases (h : row.Stands phase)
    (hopen : ¬ (row.status = .completed ∨ row.status = .compensated)) :
    row.currentStepIndex = 0 ∧ phase = .reserving ∨ row.currentStepIndex = 1 ∧ phase = .charging := by
  rw [h.status] at hopen
  rw [h.index]
  cases phase with
  | reserving => exact .inl ⟨rfl, rfl⟩
  | charging => exact .inr ⟨rfl, rfl⟩
  | completed => exact absurd (.inl rfl) hopen
  | unreserved => exact absurd (.inr rfl) hopen
  | declined => exact absurd (.inr rfl) hopen

/-- A row written by a decision on a row that stands at a phase. -/
theorem SagaInstanceRow.Stands.decided (h : row.Stands phase) {type : EventType}
    {payload : Payload}
    (hwrites : (decideEvent (some row) type payload).Writes correlationId row') :
    ∃ phase', PhaseStep phase type phase' ∧ row'.Stands phase' := by
  have hresaved : ({ row with correlationId } : SagaInstanceRow).Stands phase :=
    ⟨h.status, h.index, h.history⟩
  simp only [decideEvent] at hwrites
  split at hwrites
  · exact hwrites.elim
  rename_i hopen
  obtain ⟨hindex, rfl⟩ | ⟨hindex, rfl⟩ := h.open_cases hopen
  · simp only [hindex] at hwrites
    split at hwrites
    · rename_i htype
      obtain ⟨time, rfl⟩ := hwrites
      exact ⟨.charging, htype ▸ .reserved, rfl, rfl, by simp [advancedRow, h.history]; rfl⟩
    · split at hwrites
      · rename_i htype
        obtain ⟨time, rfl⟩ := hwrites
        exact ⟨.unreserved, htype ▸ .unreserved, rfl, hindex, by simp [cancelledRow, h.history]; rfl⟩
      · obtain rfl := hwrites
        exact ⟨.reserving, .stays _ _, hresaved⟩
  · simp only [hindex] at hwrites
    split at hwrites
    · rename_i htype
      obtain ⟨time, rfl⟩ := hwrites
      exact ⟨.completed, htype ▸ .completed, rfl, hindex, by simp [completedRow, h.history]; rfl⟩
    · split at hwrites
      · rename_i htype
        obtain ⟨time, rfl⟩ := hwrites
        exact ⟨.declined, htype ▸ .declined, rfl, hindex, by simp [cancelledRow, h.history]; rfl⟩
      · obtain rfl := hwrites
        exact ⟨.charging, .stays _ _, hresaved⟩

end Phases

/-! ## What a phase rests on -/

/-- A step has failed, for the reason that the order is cancelled with. -/
inductive FailedAt (s : Shared) (o : Uuid) : String → Prop
  | unreserved : ReservationFailed s o → FailedAt s o "RESERVE_INVENTORY"
  | declined : Declined s o → FailedAt s o "AUTHORIZE_PAYMENT"

/-- What the events say that a checkout at the phase has had. -/
def CheckoutPhase.Rests (s : Shared) (o : Uuid) : CheckoutPhase → Prop
  | .reserving => ∃ customerId items, Placed s o customerId items
  | .charging => ∃ lines, Reserved s o lines
  | .completed => ∃ customerId items p, Placed s o customerId items ∧
    Authorized s o p (OrderAggregate.totalCents items)
  | .unreserved => ReservationFailed s o
  | .declined => Declined s o

section Rests

variable {s s' : Shared} {o : Uuid} {phase phase' : CheckoutPhase}

theorem FailedAt.grow {step : String} (h : FailedAt s o step) (hgrow : Grows s s') :
    FailedAt s' o step := by
  cases h with
  | unreserved hfailed => exact .unreserved (hfailed.grow hgrow)
  | declined hdeclined => exact .declined (hdeclined.grow hgrow)

theorem CheckoutPhase.Rests.grow (h : phase.Rests s o) (hgrow : Grows s s') : phase.Rests s' o := by
  cases phase with
  | reserving => exact Exists.imp (fun _ h => h.imp fun _ h => h.grow hgrow) h
  | charging => exact Exists.imp (fun _ h => h.grow hgrow) h
  | completed =>
    obtain ⟨customerId, items, p, hplaced, hauthorized⟩ := h
    exact ⟨customerId, items, p, hplaced.grow hgrow, hauthorized.grow hgrow⟩
  | unreserved => exact ReservationFailed.grow h hgrow
  | declined => exact Declined.grow h hgrow

/-- **The event that moves a checkout on makes true what the next phase rests on.** -/
theorem PhaseStep.rests {type : EventType} {payload : Payload} (h : PhaseStep phase type phase')
    (he : Announced s type payload) (ho : payload.orderId = some o) (hrests : phase.Rests s o) :
    phase'.Rests s o := by
  cases h with
  | stays => exact hrests
  | reserved =>
    cases he with
    | inventoryReserved _ hreserved =>
      obtain rfl := Option.some.inj ho
      exact ⟨_, hreserved⟩
  | unreserved =>
    cases he with
    | inventoryReservationFailed hfailed =>
      obtain rfl := Option.some.inj ho
      exact hfailed
  | completed =>
    cases he with
    | paymentAuthorized hplaced hauthorized =>
      obtain rfl := Option.some.inj ho
      exact ⟨_, _, _, hplaced, hauthorized⟩
  | declined =>
    cases he with
    | paymentDeclined hdeclined =>
      obtain rfl := Option.some.inj ho
      exact hdeclined

/-- The step at which a decision cancels has failed. -/
theorem failedAt_of_cancel {row : SagaInstanceRow} {type : EventType} {payload : Payload}
    {r : SagaInstanceRow} {context : OrderFulfillmentContext} {step : String}
    (hdec : decideEvent (some row) type payload = .cancel r context step)
    (he : Announced s type payload) (ho : payload.orderId = some o) : FailedAt s o step := by
  simp only [decideEvent] at hdec
  split at hdec
  · cases hdec
  split at hdec
  · split at hdec
    · cases hdec
    · split at hdec
      · rename_i htype
        cases hdec
        subst htype
        cases he with
        | inventoryReservationFailed hfailed =>
          obtain rfl := Option.some.inj ho
          exact .unreserved hfailed
      · cases hdec
  · split at hdec
    · cases hdec
    · split at hdec
      · rename_i htype
        cases hdec
        subst htype
        cases he with
        | paymentDeclined hdeclined =>
          obtain rfl := Option.some.inj ho
          exact .declined hdeclined
      · cases hdec
  · cases hdec

end Rests

/-! ## The invariant -/

/-- The saga row stands at a phase that has what it rests on. -/
def RowTrue (s : Shared) (o : Uuid) (row : SagaInstanceRow) : Prop :=
  ∃ phase : CheckoutPhase, row.Stands phase ∧ phase.Rests s o

/-- The reason names a step that failed. -/
def ReasonTrue (s : Shared) (o : Uuid) (reason : String) : Prop :=
  ∃ step, reason = s!"Saga failed at step \"{step}\"" ∧ FailedAt s o step

structure QueryInv (s : Shared) : Prop where
  rows : ∀ o row, Store.row s.db (.sagaInstance o) = some row → RowTrue s o row
  commands : ∀ topic c, Published s topic (.command c) → c.type = .cancelOrder → ∀ o reason,
    c.payload.orderId = some o → c.payload.reason = some reason → ReasonTrue s o reason
  streams : ∀ o rows, HasStream .order s.db o rows → ∀ r ∈ rows, ∀ p,
    r.event = .orderCancelled p → ReasonTrue s o p.reason

/-- What a running handler was given and has read. -/
structure QueryJob (s : Shared) (t : Task) (seen : Db) : Prop where
  delivered : Delivered s t
  seen : ∀ o row, Store.row seen (.sagaInstance o) = some row → RowTrue s o row

section Step

variable {t : Task} {seen : Db} {s s' : Shared} {o : Uuid}

theorem RowTrue.grow {row : SagaInstanceRow} (h : RowTrue s o row) (hgrow : Grows s s') :
    RowTrue s' o row := by
  obtain ⟨phase, hstands, hrests⟩ := h
  exact ⟨phase, hstands, hrests.grow hgrow⟩

theorem ReasonTrue.grow {reason : String} (h : ReasonTrue s o reason) (hgrow : Grows s s') :
    ReasonTrue s' o reason := by
  obtain ⟨step, hreason, hfailed⟩ := h
  exact ⟨step, hreason, hfailed.grow hgrow⟩

theorem QueryJob.grow (h : QueryJob s t seen) (hgrow : Grows s s') : QueryJob s' t seen where
  delivered := h.delivered.grow hgrow
  seen o row hrow := (h.seen o row hrow).grow hgrow

/-- The row that a delivery writes. -/
theorem rowTrue_of_writes {r : Record EventEnvelope} {decision : Option SagaInstanceRow → Decision}
    {row : SagaInstanceRow} (hjob : QueryJob s (.event r) seen) (hI : CheckoutInv s)
    (hdec : decisionOf r.value = some (o, decision))
    (hwrites : (decision (Store.row seen (.sagaInstance o))).Writes r.value.correlationId row) :
    RowTrue s o row := by
  have he := hI.events _ _ hjob.delivered
  have hread := hjob.seen o
  generalize (Store.row seen (.sagaInstance o) : Option SagaInstanceRow) = found at hread hwrites
  obtain ⟨ho, ⟨htype, items, -, rfl⟩ | ⟨-, -, rfl⟩⟩ := decisionOf_cases hdec
  · cases found with
    | some old => exact hwrites.elim
    | none =>
      obtain ⟨time, rfl⟩ := hwrites
      refine ⟨.reserving, stands_startedRow _ _, ?_⟩
      rw [htype] at he
      generalize r.value.payload = payload at he ho
      cases he with
      | orderCreated hplaced =>
        obtain rfl := Option.some.inj ho
        exact ⟨_, _, hplaced⟩
  · cases found with
    | none => exact hwrites.elim
    | some old =>
      obtain ⟨phase, hstands, hrests⟩ := hread old rfl
      obtain ⟨phase', hstep, hstands'⟩ := hstands.decided hwrites
      exact ⟨phase', hstands', hstep.rests he ho hrests⟩

/-- The reason that a delivery cancels with. -/
theorem reasonTrue_of_publishes {r : Record EventEnvelope}
    {decision : Option SagaInstanceRow → Decision} {row : Option SagaInstanceRow}
    {c : CommandEnvelope} {orderId : Uuid} {reason : String} (hjob : Delivered s (.event r))
    (hI : CheckoutInv s) (hdec : decisionOf r.value = some (orderId, decision))
    (hpublishes : (decision row).Publishes r.value.correlationId c) (htype : c.type = .cancelOrder)
    (ho : c.payload.orderId = some o) (hreason : c.payload.reason = some reason) :
    ReasonTrue s o reason := by
  have he := hI.events _ _ hjob
  obtain ⟨horder, ⟨-, items, -, rfl⟩ | ⟨-, -, rfl⟩⟩ := decisionOf_cases hdec
  · cases row with
    | some old => exact hpublishes.elim
    | none =>
      obtain ⟨-, htype', -⟩ := hpublishes
      cases htype.symm.trans htype'
  · replace hpublishes : (decideEvent row r.value.type r.value.payload).Publishes
      r.value.correlationId c := hpublishes
    obtain hignore | ⟨e, hfail⟩ | ⟨old, rfl, hcases⟩ :=
      decideEvent_cases row r.value.type r.value.payload
    · rw [hignore] at hpublishes
      exact hpublishes.elim
    · rw [hfail] at hpublishes
      exact hpublishes.elim
    obtain hresave | ⟨-, hadvance⟩ | ⟨-, hcomplete⟩ | ⟨-, step, hcancel⟩ := hcases
    · rw [hresave] at hpublishes
      exact hpublishes.elim
    · rw [hadvance] at hpublishes
      cases htype.symm.trans hpublishes.2.1
    · rw [hcomplete] at hpublishes
      cases htype.symm.trans hpublishes.2.1
    · have hfailed := failedAt_of_cancel hcancel he horder
      rw [hcancel] at hpublishes
      obtain ⟨-, -, hpayload⟩ := hpublishes
      rw [hpayload] at ho hreason
      have hspread : (old.context.spread r.value.payload).orderId = some orderId :=
        Payload.spread_orderId_of_some horder
      obtain rfl : orderId = o := Option.some.inj (hspread.symm.trans ho)
      exact ⟨step, (Option.some.inj hreason).symm, hfailed⟩

/-- **Every step keeps it.** -/
theorem QueryInv.step (hQ : QueryInv s) (hI : CheckoutInv s) (hdb : Consistent s.db)
    (hjob : QueryJob s t seen) (h : ServiceStep t seen s s') : QueryInv s' := by
  have hgrow := h.grows hdb
  constructor
  · intro o row hrow
    obtain hsame | ⟨r, decision, row', rfl, hdec, hwrites, hrow'⟩ := h.saga_cases o
    · rw [hsame] at hrow
      exact (hQ.rows o row hrow).grow hgrow
    · obtain rfl := Option.some.inj (hrow.symm.trans hrow')
      exact (rowTrue_of_writes hjob hI hdec hwrites).grow hgrow
  · rintro topic c ⟨task, key, res, hmem⟩ htype o reason ho hreason
    obtain hold | ⟨rfl, hallowed, -⟩ := h.new_event hmem
    · exact (hQ.commands topic c ⟨task, key, res, hold⟩ htype o reason ho hreason).grow hgrow
    · obtain ⟨-, ⟨_, _, _, rfl, hcreate, -⟩ | ⟨r, orderId, decision, rfl, hdec, hpublishes⟩⟩ :=
        MayPublish.of_command hallowed
      · cases htype.symm.trans hcreate
      · exact (reasonTrue_of_publishes hjob.delivered hI hdec hpublishes htype ho hreason).grow hgrow
  · intro o rows hrows r hr p hp
    obtain hold | ⟨rows', r', hrows', rfl, happ⟩ := h.stream_before hrows
    · exact (hQ.streams o rows hold r hr p hp).grow hgrow
    obtain hold | hnew := List.mem_append.mp hr
    · exact (hQ.streams o rows' hrows' r hold p hp).grow hgrow
    · obtain rfl := List.mem_singleton.mp hnew
      cases happ with
      | created => cases hp
      | confirmed => cases hp
      | @cancelled c _ reason _ _ htype ho hreason =>
        obtain rfl := OrderEvent.orderCancelled.inj hp
        have hpublished : Published s c.topic (.command c.value) := hjob.delivered
        exact (hQ.commands _ _ hpublished htype o reason ho hreason).grow hgrow

end Step

theorem QueryInv.start {s : Shared} (hdb : OnlyStocked s.db) (htrace : s.trace = []) :
    QueryInv s where
  rows o row hrow := by
    rw [hdb (.sagaInstance o) nofun] at hrow
    cases hrow
  commands topic c hpublished := absurd hpublished (not_published htrace topic _)
  streams o rows hrows r hr := by
    rw [hdb.fresh.stream_nil hrows] at hr
    exact absurd hr List.not_mem_nil

theorem queryInv_of_reach {S : System} {G : Guard} (hcode : S.code = code)
    (hspawn : ∀ s t, S.spawn s t → Delivered s.shared t)
    (hstart : ∀ s, S.start s → OnlyStocked s.db ∧ s.trace = []) {s : State} (h : Reach S G s) :
    QueryInv s.shared := by
  have hkeeps : S.Keeps serviceProtocol G :=
    keepsServiceProtocol hcode fun s hs => (hstart s hs).1.fresh.consistent
  refine Protocol.invariant_of_known hkeeps (K := CheckoutInv)
    (fun s hs => checkoutInv_of_reach hcode hspawn hstart hs) (J := QueryJob)
    (fun s t ht => ⟨hspawn s t ht, fun o row hrow => ?_⟩) (fun t seen s s' hgrow hjob =>
    hjob.grow hgrow) (fun t seen s hQ hjob => ⟨hjob.delivered, hQ.rows⟩) (fun s hs => ?_)
    (fun t seen s s' hdb hI _ htook hQ hstep => hQ.step hI hdb htook.task hstep) h
  · rw [Store.row_nil] at hrow
    cases hrow
  · exact .start (hstart s hs).1 (hstart s hs).2

/-! ## The answers are true -/

/-- The inventory service could not reserve the stock of the order. -/
def NotReserved (s : Shared) (o : Uuid) : Prop :=
  ∃ rows, HasStream .inventory s.db o rows ∧ (replay .inventory rows).status = .failed

/-- The payment of the order is DECLINED. -/
def DeclinedBy (s : Shared) (o p : Uuid) : Prop :=
  ∃ rows, HasStream .payment s.db p rows ∧ (replay .payment rows).status = .declined ∧
    (replay .payment rows).orderId = o

/-- What a checkout at the phase has had, in the stores of the services. -/
def CheckoutPhase.Holds (s : Shared) (o : Uuid) : CheckoutPhase → Prop
  | .reserving => ∃ customerId items, Placed s o customerId items
  | .charging => ∃ customerId items, Placed s o customerId items ∧ HeldFor s o items
  | .completed => ∃ customerId items p, Placed s o customerId items ∧ HeldFor s o items ∧
    PaidBy s o p items ∧ ∀ p', PaymentOf s.db o p' → p' = p
  | .unreserved => NotReserved s o ∧ ∀ p, ¬ PaymentOf s.db o p
  | .declined => ∃ customerId items p, Placed s o customerId items ∧ HeldFor s o items ∧
    DeclinedBy s o p ∧ ∀ p', PaymentOf s.db o p' → p' = p

/-- The answer is that of the phase. -/
structure OrderStatusResult.Shows (result : OrderStatusResult) (o : Uuid) (phase : CheckoutPhase) :
    Prop where
  orderId : result.orderId = o
  sagaStatus : result.sagaStatus = phase.sagaStatus
  currentStep : result.currentStep = ["RESERVE_INVENTORY", "AUTHORIZE_PAYMENT"][phase.stepIndex]?
  history : result.history.map HistoryEntry.outcome = phase.history

section True

variable {s : Shared} {o p : Uuid}

theorem PaymentOf.unique {p' : Uuid} (hdb : Consistent s.db) (h : PaymentOf s.db o p)
    (h' : PaymentOf s.db o p') : p' = p :=
  Option.some.inj (((paymentOf_iff hdb).mp h').symm.trans ((paymentOf_iff hdb).mp h))

/-- What was reserved was placed. -/
theorem Reserved.placed {lines : List ReservationLine} (h : Reserved s o lines)
    (hI : CheckoutInv s) : ∃ customerId items, Placed s o customerId items := by
  obtain ⟨reservationId, r, more, hrows, hevent⟩ := h
  cases hI.streams _ _ _ hrows with
  | reserved hplaced _ _ => exact ⟨_, _, hplaced⟩
  | reservationFailed _ hevent' => cases hevent.symm.trans hevent'

/-- Every payment of an order is of one whose stock was reserved. -/
theorem PaymentOf.reserved (h : PaymentOf s.db o p) (hI : CheckoutInv s) :
    ∃ lines, Reserved s o lines := by
  obtain ⟨rows, hrows, hne, ho⟩ := h
  cases hI.streams _ _ _ hrows with
  | nil => exact absurd rfl hne
  | authorized _ _ hreserved hevent =>
    rw [replay_one, hevent] at ho
    obtain rfl := ho
    exact ⟨_, hreserved⟩
  | declined _ hreserved hevent =>
    rw [replay_one, hevent] at ho
    obtain rfl := ho
    exact ⟨_, hreserved⟩

theorem Declined.declinedBy (h : Declined s o) (hI : CheckoutInv s) :
    ∃ p, DeclinedBy s o p ∧ PaymentOf s.db o p := by
  obtain ⟨p, declineCode, reason, hpayment, r, more, hrows, hevent⟩ := h.paymentOf hI
  refine ⟨p, ?_, hpayment⟩
  cases hI.streams _ _ _ hrows with
  | authorized _ _ _ hevent' => cases hevent.symm.trans hevent'
  | declined _ _ _ =>
    refine ⟨[r], hrows, ?_⟩
    rw [replay_one, hevent]
    exact ⟨rfl, rfl⟩

theorem ReservationFailed.notReserved (h : ReservationFailed s o) (hI : CheckoutInv s) :
    NotReserved s o ∧ ∀ p, ¬ PaymentOf s.db o p := by
  obtain ⟨sku, reason, hfirst⟩ := h
  constructor
  · obtain ⟨r, more, hrows, hevent⟩ := hfirst
    cases hI.streams _ _ _ hrows with
    | reserved _ _ hevent' => cases hevent.symm.trans hevent'
    | reservationFailed _ _ =>
      refine ⟨[r], hrows, ?_⟩
      rw [replay_one, hevent]
      rfl
  · intro p hpayment
    obtain ⟨lines, reservationId, hreserved⟩ := hpayment.reserved hI
    cases hreserved.unique hfirst

/-- **What a phase rests on is in the stores.** -/
theorem CheckoutPhase.Rests.holds {phase : CheckoutPhase} (h : phase.Rests s o)
    (hI : CheckoutInv s) (hdb : Consistent s.db) (hdrawn : DrawnOnce s) : phase.Holds s o := by
  cases phase with
  | reserving => exact h
  | charging =>
    obtain ⟨lines, hreserved⟩ := h
    obtain ⟨customerId, items, hplaced⟩ := hreserved.placed hI
    exact ⟨_, _, hplaced, hreserved.heldFor hI hdrawn hplaced⟩
  | completed =>
    obtain ⟨customerId, items, p, hplaced, hauthorized⟩ := h
    have hpayment := hauthorized.paymentOf hI
    obtain ⟨lines, hreserved⟩ := hpayment.reserved hI
    exact ⟨_, _, p, hplaced, hreserved.heldFor hI hdrawn hplaced, hauthorized.paidBy hI,
      fun _ h' => hpayment.unique hdb h'⟩
  | unreserved => exact ReservationFailed.notReserved h hI
  | declined =>
    obtain ⟨p, hdeclined, hpayment⟩ := Declined.declinedBy h hI
    obtain ⟨lines, hreserved⟩ := hpayment.reserved hI
    obtain ⟨customerId, items, hplaced⟩ := hreserved.placed hI
    exact ⟨_, _, p, hplaced, hreserved.heldFor hI hdrawn hplaced, hdeclined,
      fun _ h' => hpayment.unique hdb h'⟩

theorem SagaInstanceRow.Stands.shows {row : SagaInstanceRow} {phase : CheckoutPhase}
    (h : row.Stands phase) : OrderStatusResult.Shows
      { orderId := o, sagaStatus := row.status
        currentStep := SagasController.stepName row.currentStepIndex, history := row.history }
      o phase where
  orderId := rfl
  sagaStatus := h.status
  currentStep := by
    show some (SagasController.stepName row.currentStepIndex) = _
    rw [h.index]
    cases phase <;> rfl
  history := h.history

end True

/-- An answer of the gateway: what its phase says has happened, or there is no
saga, or the call failed on the way. -/
def StatusTrue (s : Shared) (failure : Option String) (o : Uuid) :
    Except OrderStatusError OrderStatusResult → Prop
  | .ok result => ∃ phase : CheckoutPhase, result.Shows o phase ∧ phase.Holds s o
  | .error (.notFound _) => failure = none ∧ Store.row s.db (.sagaInstance o) = none
  | .error (.rethrown err) => failure = some err.message

theorem statusTrue_of_inv {s : Shared} (hQ : QueryInv s) (hI : CheckoutInv s)
    (hdb : Consistent s.db) (hdrawn : DrawnOnce s) (failure : Option String) (o : Uuid) :
    StatusTrue s failure o (OrdersService.getOrderStatus (sagasResponse failure s.db o) o) := by
  cases failure with
  | some message => rfl
  | none =>
    have hrow := hQ.rows o
    unfold sagasResponse SagasController.getStatus
    generalize hfound : (Store.row s.db (.sagaInstance o) : Option SagaInstanceRow) = found at hrow
    cases found with
    | none => exact ⟨rfl, hfound⟩
    | some row =>
      obtain ⟨phase, hstands, hrests⟩ := hrow row rfl
      exact ⟨phase, hstands.shows, hrests.holds hI hdb hdrawn⟩

/-- **What a customer is told of a checkout is true**, at every moment of every run. -/
theorem orderStatus_true (s : LockState) (h : LockReach checkoutSystem anything s)
    (failure : Option String) (o : Uuid) : StatusTrue s.base.shared failure o
      (OrdersService.getOrderStatus (sagasResponse failure s.base.shared.db o) o) := by
  have hreach := h.atomic.2
  exact statusTrue_of_inv (queryInv_of_reach rfl (fun _ _ ht => ht) (fun _ hs => hs) hreach)
    (checkoutInv_of_reach rfl (fun _ _ ht => ht) (fun _ hs => hs) hreach)
    (Protocol.sound checkoutSystem_keeps hreach).inv (drawnOnce_of_reach hreach) failure o

/-- After the sale: COMPLETED. -/
theorem orderStatus_sale : ∃ s : LockState,
    (Store.row s.base.shared.db (.sagaInstance (uuidOf 0))).isSome ∧
    StatusTrue s.base.shared none (uuidOf 0)
      (OrdersService.getOrderStatus (sagasResponse none s.base.shared.db (uuidOf 0)) (uuidOf 0)) :=
  ⟨_, by decide +kernel, orderStatus_true _ reach_sale.withLocks none (uuidOf 0)⟩

/-! ## Two answers for one order -/

/-- The checkout has ended. -/
def OrderStatusResult.Final (result : OrderStatusResult) : Prop :=
  result.sagaStatus = .completed ∨ result.sagaStatus = .compensated

section Verdict

variable {s s' : Shared} {o : Uuid}

/-- An answer is of a row that stands at a phase. -/
theorem QueryInv.answer {result : OrderStatusResult} (hQ : QueryInv s)
    (h : SagasController.getStatus s.db o = .ok result) :
    ∃ phase : CheckoutPhase, result.Shows o phase ∧ phase.Rests s o := by
  have hrow := hQ.rows o
  unfold SagasController.getStatus at h
  generalize (Store.row s.db (.sagaInstance o) : Option SagaInstanceRow) = found at hrow h
  cases found with
  | none => cases h
  | some row =>
    cases h
    obtain ⟨phase, hstands, hrests⟩ := hrow row rfl
    exact ⟨phase, hstands.shows, hrests⟩

/-- A checkout has one end. -/
theorem CheckoutPhase.Rests.agree {phase phase' : CheckoutPhase} (h : phase.Rests s o)
    (h' : phase'.Rests s o) (hI : CheckoutInv s) (hdb : Consistent s.db)
    (hfinal : phase.sagaStatus ≠ .inProgress) (hfinal' : phase'.sagaStatus ≠ .inProgress) :
    phase' = phase := by
  -- what was not reserved has no payment
  have hunpaid : ReservationFailed s o → ¬ Declined s o := by
    intro hfailed hdeclined
    obtain ⟨p, -, hpayment⟩ := hdeclined.declinedBy hI
    exact (hfailed.notReserved hI).2 p hpayment
  have hpaid : CheckoutPhase.completed.Rests s o → ¬ (ReservationFailed s o ∨ Declined s o) := by
    rintro ⟨_, _, p, -, hauthorized⟩
    exact hauthorized.not_failed hI hdb
  cases phase with
  | reserving => exact absurd rfl hfinal
  | charging => exact absurd rfl hfinal
  | completed =>
    cases phase' with
    | reserving => exact absurd rfl hfinal'
    | charging => exact absurd rfl hfinal'
    | completed => rfl
    | unreserved => exact absurd (.inl h') (hpaid h)
    | declined => exact absurd (.inr h') (hpaid h)
  | unreserved =>
    cases phase' with
    | reserving => exact absurd rfl hfinal'
    | charging => exact absurd rfl hfinal'
    | completed => exact absurd (.inl h) (hpaid h')
    | unreserved => rfl
    | declined => exact absurd h' (hunpaid h)
  | declined =>
    cases phase' with
    | reserving => exact absurd rfl hfinal'
    | charging => exact absurd rfl hfinal'
    | completed => exact absurd (.inr h) (hpaid h')
    | unreserved => exact absurd h (hunpaid h')
    | declined => rfl

theorem OrderStatusResult.Final.phase {result : OrderStatusResult} {phase : CheckoutPhase}
    (h : result.Final) (hshows : result.Shows o phase) : phase.sagaStatus ≠ .inProgress := by
  unfold OrderStatusResult.Final at h
  rw [hshows.sagaStatus] at h
  intro hopen
  rw [hopen] at h
  simp at h

end Verdict

/-- **The verdict on a checkout stands.**  A row may be written back from a
stale read, but no customer who was told how a checkout ended is ever told
another end of it. -/
theorem verdict_stands (s s' : LockState) (h : LockReach checkoutSystem anything s)
    (hlater : LockLater checkoutSystem anything s s') (o : Uuid) (result result' : OrderStatusResult)
    (hresult : SagasController.getStatus s.base.shared.db o = .ok result)
    (hresult' : SagasController.getStatus s'.base.shared.db o = .ok result')
    (hfinal : result.Final) (hfinal' : result'.Final) :
    result'.sagaStatus = result.sagaStatus ∧ result'.currentStep = result.currentStep ∧
      result'.history.map HistoryEntry.outcome = result.history.map HistoryEntry.outcome := by
  have hgrow : Grows s.base.shared s'.base.shared :=
    Protocol.rely_of_later checkoutSystem_keeps h hlater
  have hreach := h.atomic.2
  have hreach' := (h.later hlater).atomic.2
  have hinv : ∀ {s}, Reach checkoutSystem anything s → QueryInv s.shared ∧ CheckoutInv s.shared :=
    fun hs => ⟨queryInv_of_reach rfl (fun _ _ ht => ht) (fun _ hs => hs) hs,
      checkoutInv_of_reach rfl (fun _ _ ht => ht) (fun _ hs => hs) hs⟩
  obtain ⟨phase, hshows, hrests⟩ := (hinv hreach).1.answer hresult
  obtain ⟨phase', hshows', hrests'⟩ := (hinv hreach').1.answer hresult'
  obtain rfl := (hrests.grow hgrow).agree hrests' (hinv hreach').2
    (Protocol.sound checkoutSystem_keeps hreach').inv (hfinal.phase hshows) (hfinal'.phase hshows')
  refine ⟨?_, ?_, ?_⟩
  · rw [hshows.sagaStatus, hshows'.sagaStatus]
  · exact Option.some.inj (hshows'.currentStep.trans hshows.currentStep.symm)
  · rw [hshows.history, hshows'.history]

/-- After the sale. -/
def sold : Shared := checkoutSystem.runs allWell sale ⟨fiveInStock, []⟩

/-- The sale, before and after another request comes in. -/
theorem verdict_stands_sale : ∃ (s s' : LockState) (result result' : OrderStatusResult),
    s ≠ s' ∧ result.Final ∧ result'.Final ∧ result'.sagaStatus = result.sagaStatus ∧
      result'.currentStep = result.currentStep ∧
      result'.history.map HistoryEntry.outcome = result.history.map HistoryEntry.outcome := by
  let s : LockState := ⟨.idle sold, fun _ => none⟩
  let request : Task := .createOrder customer₂ [] "d"
  let s' : LockState := ⟨s.base.set 0 (some ⟨request, [], code request⟩), s.txns⟩
  have hlater : LockLater checkoutSystem anything s s' :=
    .single ⟨0, _, .outside (.spawn rfl trivial) trivial, fun _ _ => trivial⟩
  have hne : s ≠ s' := fun heq => by
    have hjobs := congrArg (fun s : LockState => (s.base.jobs 0).isSome) heq
    simp [s, s', State.idle] at hjobs
  have hanswer : (SagasController.getStatus sold.db (uuidOf 0)).toOption.map (·.sagaStatus) =
      some .completed := by decide +kernel
  obtain ⟨result, hsome, hfinal⟩ := Option.map_eq_some_iff.mp hanswer
  have hresult : SagasController.getStatus sold.db (uuidOf 0) = .ok result := by
    cases hfound : SagasController.getStatus sold.db (uuidOf 0) with
    | error e =>
      rw [hfound] at hsome
      cases hsome
    | ok result' =>
      rw [hfound] at hsome
      exact congrArg _ (Option.some.inj hsome)
  exact ⟨s, s', result, result, hne, .inl hfinal, .inl hfinal,
    verdict_stands s s' reach_sale.withLocks hlater (uuidOf 0) result result hresult hresult
      (.inl hfinal) (.inl hfinal)⟩

/-! ## The order's own read model -/

/-- `GET internal/orders/:orderId` of the order service. -/
def GetOrderByIdHandler.execute (db : Db) (orderId : Uuid) : Except Err OrderProjectionRow :=
  match Store.row db (.projection .order orderId) with
  | none => .error (.notFound s!"No order found with id {orderId}")
  | some (order : OrderProjectionRow) => .ok order

/-- What the row says of the order's end. -/
inductive OrderEnd (s : Shared) (o : Uuid) (items : List OrderLineItem) :
    OrderStatus → Option Uuid → Option String → Prop
  | created : OrderEnd s o items .created none none
  | confirmed {p : Uuid} : PaidBy s o p items → HeldFor s o items →
      OrderEnd s o items .confirmed (some p) none
  | cancelled {reason : String} : ReasonTrue s o reason →
      OrderEnd s o items .cancelled none (some reason)

/-- An order that is found has events, and was placed as the row says; a missing
one has no events. -/
def OrderTrue (s : Shared) (o : Uuid) : Except Err OrderProjectionRow → Prop
  | .ok row => (∃ rows, HasStream .order s.db o rows ∧ rows ≠ []) ∧
    ∃ items, Placed s o row.customerId items ∧ row.items = items ∧
      (row.totalCents : Num) = (items.map fun i => i.qty * i.unitPriceCents).sum ∧
      OrderEnd s o items row.status row.paymentId row.cancelReason
  | .error _ => HasStream .order s.db o []

section Order

variable {s : Shared} {o : Uuid}

theorem orderTrue_of_inv (hQ : QueryInv s) (hI : CheckoutInv s) (hdb : Consistent s.db)
    (hdrawn : DrawnOnce s) : OrderTrue s o (GetOrderByIdHandler.execute s.db o) := by
  obtain ⟨rows, hrows⟩ := hdb.stream .order o
  have hprojected := hdb.projected hrows
  have hreason := hQ.streams o rows hrows
  unfold GetOrderByIdHandler.execute
  cases hI.streams _ _ _ hrows with
  | nil =>
    rw [hprojected.none_of_nil rfl]
    exact hrows
  | created hplaced hevent =>
    obtain ⟨row, hrow, hcustomer, hstatus, hitems, htotal, hpayment, hcancel, -⟩ :=
      hprojected.some_of_ne (by simp)
    rw [replay_one, hevent] at hcustomer hstatus hitems htotal hpayment hcancel
    rw [hrow]
    refine ⟨⟨_, hrows, by simp⟩, _, hcustomer ▸ hplaced, hitems, htotal.trans (totalCents_eq _), ?_⟩
    rw [hstatus, hpayment, hcancel]
    exact .created
  | confirmed hplaced hevent hplaced' hauthorized hevent' =>
    obtain ⟨row, hrow, hcustomer, hstatus, hitems, htotal, hpayment, hcancel, -⟩ :=
      hprojected.some_of_ne (by simp)
    rw [replay_two, hevent, hevent'] at hcustomer hstatus hitems htotal hpayment hcancel
    rw [hrow]
    refine ⟨⟨_, hrows, by simp⟩, _, hcustomer ▸ hplaced, hitems, htotal.trans (totalCents_eq _), ?_⟩
    rw [hstatus, hpayment, hcancel]
    obtain rfl := hplaced.unique hdrawn hplaced'
    obtain ⟨-, lines, -, -, -, hreserved⟩ := hauthorized.stream hI
    exact .confirmed (hauthorized.paidBy hI) (hreserved.heldFor hI hdrawn hplaced)
  | cancelled hplaced hevent _ hevent' =>
    obtain ⟨row, hrow, hcustomer, hstatus, hitems, htotal, hpayment, hcancel, -⟩ :=
      hprojected.some_of_ne (by simp)
    rw [replay_two, hevent, hevent'] at hcustomer hstatus hitems htotal hpayment hcancel
    rw [hrow]
    refine ⟨⟨_, hrows, by simp⟩, _, hcustomer ▸ hplaced, hitems, htotal.trans (totalCents_eq _), ?_⟩
    rw [hstatus, hpayment, hcancel]
    exact .cancelled (hreason _ (by simp) _ hevent')

end Order

/-- **The order's read model tells what was ordered and how it ended**: the
payment of a confirmed order is AUTHORIZED for its total, and the reason of a
cancelled one names the step that failed. -/
theorem orderById_true (s : LockState) (h : LockReach checkoutSystem anything s) (o : Uuid) :
    OrderTrue s.base.shared o (GetOrderByIdHandler.execute s.base.shared.db o) := by
  have hreach := h.atomic.2
  exact orderTrue_of_inv (queryInv_of_reach rfl (fun _ _ ht => ht) (fun _ hs => hs) hreach)
    (checkoutInv_of_reach rfl (fun _ _ ht => ht) (fun _ hs => hs) hreach)
    (Protocol.sound checkoutSystem_keeps hreach).inv (drawnOnce_of_reach hreach)

/-- After the sale the order is found. -/
theorem orderById_sale : ∃ s : LockState,
    (Store.row s.base.shared.db (.projection .order (uuidOf 0))).isSome ∧
    OrderTrue s.base.shared (uuidOf 0) (GetOrderByIdHandler.execute s.base.shared.db (uuidOf 0)) :=
  ⟨_, by decide +kernel, orderById_true _ reach_sale.withLocks (uuidOf 0)⟩

end Saganova